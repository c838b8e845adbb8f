import DexForge.Instruction.Basic
import DexForge.Proofs.Arithmetic
import DexForge.Proofs.Control.Pairing

/-! # The registers of an instruction as numbers

Counting registers in 16 bits gives the numbers that the instruction touches, or stops because one of
them is no register.
-/
set_option autoImplicit false

namespace DexForge.Instruction

/-- The registers as numbers: behind the last one there is none. -/
def touched : Instruction → List Nat
  | returnVoid => []
  | returnValue reg | returnObject reg | checkCast reg _ => [reg.toNat]
  | returnWide reg | moveResultWide reg => [reg.toNat, reg.toNat + 1]
  | moveResult dst | moveResultObject dst | const4 dst _ | const16 dst _ | const32 dst _
  | constString dst _ | constStringJumbo dst _ | sgetObject dst _ => [dst.toNat]
  | moveFrom16 dst src | moveObjectFrom16 dst src => [dst.toNat, src.toNat]
  | moveWideFrom16 dst src => [dst.toNat, dst.toNat + 1, src.toNat, src.toNat + 1]
  | newArray a b _ | igetObject a b _ | iputObject a b _ => [a.toNat, b.toNat]
  | agetObject a b c | aputObject a b c => [a.toNat, b.toNat, c.toNat]
  | invoke _ _ args => args.map UInt8.toNat
  | invokeRange _ _ first count => (List.range count.toNat).map fun i => first.toNat + i

theorem map_toNat_inj {regs regs' : List UInt16} :
    regs.map UInt16.toNat = regs'.map UInt16.toNat ↔ regs = regs' :=
  (List.map_injective_iff.mpr fun _ _ => UInt16.toNat.inj).eq_iff

theorem toNat_succ {reg : UInt16} (h : reg.toNat + 1 < 0x10000) :
    (reg + 1).toNat = reg.toNat + 1 := by
  rw [UInt16.toNat_add]
  exact Nat.mod_eq_of_lt h

theorem map_toNat_pair (reg : UInt8) :
    (pair reg.toUInt16).map UInt16.toNat = [reg.toNat, reg.toNat + 1] := by
  have hReg := reg.toNat_lt
  have hNext : (reg.toUInt16 + 1).toNat = reg.toUInt16.toNat + 1 := toNat_succ (by
    rw [UInt8.toNat_toUInt16]
    omega)
  rw [pair, List.map_cons, List.map_singleton, hNext, UInt8.toNat_toUInt16]

theorem toNat_add_ofNat {first : UInt16} {i : Nat} (h : first.toNat + i < 0x10000) :
    (first + UInt16.ofNat i).toNat = first.toNat + i := by
  rw [UInt16.toNat_add, UInt16.toNat_ofNat', Nat.add_mod_mod]
  exact Nat.mod_eq_of_lt h

theorem add16_ofNat_eq_some_iff {first reg : UInt16} {i : Nat} (hi : i < 0x100) :
    Arithmetic.checked.add16 first (UInt16.ofNat i) = some reg ↔ first.toNat + i = reg.toNat := by
  have hIndex : (UInt16.ofNat i).toNat = i := UInt16.toNat_ofNat_of_lt (Nat.lt_trans hi (by decide))
  rw [Arithmetic.checked_add16_eq_some_iff, hIndex]
  constructor
  · rintro ⟨hFits, rfl⟩
    exact (toNat_add_ofNat hFits).symm
  · intro hReg
    have hFits : first.toNat + i < 0x10000 := hReg ▸ reg.toNat_lt
    exact ⟨hFits, UInt16.toNat.inj (hReg.symm.trans (toNat_add_ofNat hFits).symm)⟩

theorem run_eq_some_iff {first : UInt16} {count : UInt8} {regs : List UInt16} :
    ((List.range count.toNat).mapM fun i => Arithmetic.checked.add16 first (UInt16.ofNat i)) =
        some regs ↔
      regs.map UInt16.toNat = (List.range count.toNat).map fun i => first.toNat + i := by
  have hIndices : ∀ i ∈ List.range count.toNat, i < 0x100 := fun i hi =>
    Nat.lt_trans (List.mem_range.mp hi) count.toNat_lt
  rw [Pairing.mapM_eq_some_iff, eq_comm, ← List.forall₂_eq_eq_eq, List.forall₂_map_left_iff,
    List.forall₂_map_right_iff]
  constructor
  · intro h
    exact (List.forall₂_and_left _ _ |>.mpr ⟨hIndices, h⟩).imp fun i reg hReg =>
      (add16_ofNat_eq_some_iff hReg.1).mp hReg.2
  · intro h
    exact (List.forall₂_and_left _ _ |>.mpr ⟨hIndices, h⟩).imp fun i reg hReg =>
      (add16_ofNat_eq_some_iff hReg.1).mpr hReg.2

/-- The registers are counted as long as their numbers are numbers of registers. -/
theorem registers?_eq_some_iff {i : Instruction} {regs : List UInt16} :
    i.registers? = some regs ↔ regs.map UInt16.toNat = i.touched := by
  have hKnown : ∀ known : List UInt16, some known = some regs ↔
      regs.map UInt16.toNat = known.map UInt16.toNat := by
    intro known
    rw [Option.some.injEq, map_toNat_inj, eq_comm]
  cases i with
  | returnWide _ | moveResultWide _ =>
    rw [registers?, hKnown, map_toNat_pair]
    rfl
  | moveWideFrom16 dst src =>
    rw [registers?, Option.map_eq_some_iff]
    constructor
    · rintro ⟨next, hNext, rfl⟩
      obtain ⟨hFits, rfl⟩ := Arithmetic.checked_add16_eq_some_iff.mp hNext
      simp [touched, map_toNat_pair, toNat_succ hFits]
    · intro h
      -- the second half of the source is among the registers, so it is a register number
      have hLast : src.toNat + 1 ∈ regs.map UInt16.toNat := by
        rw [h, touched]
        simp
      obtain ⟨next, -, hNext⟩ := List.mem_map.mp hLast
      have hFits : src.toNat + 1 < 0x10000 := hNext ▸ next.toNat_lt
      refine ⟨src + 1, Arithmetic.checked_add16_eq_some_iff.mpr ⟨hFits, rfl⟩, ?_⟩
      rw [← map_toNat_inj, h]
      simp [touched, map_toNat_pair, toNat_succ hFits]
  | invokeRange kind method first count => exact run_eq_some_iff
  | invoke kind method args =>
    rw [registers?, hKnown, List.map_map]
    rfl
  | _ =>
    rw [registers?, hKnown]
    rfl

end DexForge.Instruction
