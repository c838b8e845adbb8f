import DexForge.Proofs.Control.Except
import DexForge.Proxy.Lowering

/-! # What lowering gives fits the format -/
set_option autoImplicit false

namespace DexForge

namespace Lowering

theorem narrow_eq_ok_iff {reg small : UInt8} : narrow reg = .ok small ↔ reg < 16 ∧ small = reg := by
  unfold narrow
  split
  · next h => simp [h, eq_comm]
  · next h => simp [h]

theorem toInt_toInt8 {value : Int32} (hLow : -8 ≤ value.toInt) (hHigh : value.toInt ≤ 7) :
    value.toInt8.toInt = value.toInt := by
  rw [Int32.toInt_toInt8]
  exact Int.bmod_eq_of_le (by omega) (by omega)

theorem wellFormed_const (dst : UInt8) (value : Int32) : (const dst value).WellFormed := by
  simp only [const]
  split
  · next h =>
    obtain ⟨hDst, hLow, hHigh⟩ := h
    have hSame := toInt_toInt8 hLow hHigh
    exact ⟨hDst, by rwa [hSame], by rwa [hSame]⟩
  · split <;> trivial

theorem toUInt32_toUInt16 {string : UInt32} (h : string < 65536) :
    string.toUInt16.toUInt32 = string := by
  have hBound : string.toNat < 65536 := h
  apply UInt32.toNat.inj
  rw [UInt16.toNat_toUInt32, UInt32.toNat_toUInt16, Nat.mod_eq_of_lt hBound]

theorem wellFormed_constString (dst : UInt8) (string : UInt32) :
    (constString dst string).WellFormed := by
  rw [constString]
  split <;> trivial

theorem toUInt8_lt {reg : UInt16} (h : reg < 16) : reg.toUInt8 < 16 := by
  have hReg : reg.toNat < 16 := h
  have hNarrow : reg.toUInt8.toNat = reg.toNat := by
    rw [UInt16.toNat_toUInt8, Nat.mod_eq_of_lt (by omega)]
  rw [UInt8.lt_iff_toNat_lt, hNarrow]
  exact hReg

variable {arithmetic : Arithmetic} {kind : InvokeKind} {method : UInt16} {args : List UInt16}
  {i : Instruction}

/-- Either every argument is named, or the arguments are a run that is named by its ends. -/
theorem invoke_eq_ok (h : invoke arithmetic kind method args = .ok i) :
    args.length ≤ 5 ∧ (∀ arg ∈ args, arg < 16) ∧
        i = .invoke kind method (args.map UInt16.toUInt8) ∨
      args.length ≤ 255 ∧ isRun arithmetic (args.headD 0) args = .ok true ∧
        i = .invokeRange kind method (args.headD 0) (UInt8.ofNat args.length) := by
  rw [invoke] at h
  split at h
  · next hNarrow =>
    cases h
    refine Or.inl ⟨hNarrow.1, ?_, rfl⟩
    simpa using hNarrow.2
  · obtain ⟨run, hRun, h⟩ := Except.bind_eq_ok_iff.mp h
    split at h
    · next hShort =>
      cases h
      rw [Bool.and_eq_true, decide_eq_true_eq] at hShort
      obtain ⟨rfl, hLength⟩ := hShort
      exact Or.inr ⟨hLength, hRun, rfl⟩
    · cases h

theorem wellFormed_of_invoke (h : invoke arithmetic kind method args = .ok i) : i.WellFormed := by
  obtain ⟨hLength, hArgs, rfl⟩ | ⟨-, -, rfl⟩ := invoke_eq_ok h
  · refine ⟨by simpa using hLength, ?_⟩
    intro arg hArg
    obtain ⟨reg, hReg, rfl⟩ := List.mem_map.mp hArg
    exact toUInt8_lt (hArgs reg hReg)
  · trivial

end Lowering

namespace Operation

open DexForge.Except Lowering

/-- What an operation is lowered to, with what that needs. -/
inductive Becomes (arithmetic : Arithmetic) (tables : Tables) :
    Operation Slot → Instruction → Prop where
  | returnVoid : Becomes arithmetic tables .returnVoid .returnVoid
  | returnValue reg : Becomes arithmetic tables (.returnValue reg) (.returnValue reg)
  | returnWide reg : Becomes arithmetic tables (.returnWide reg) (.returnWide reg)
  | returnObject reg : Becomes arithmetic tables (.returnObject reg) (.returnObject reg)
  | moveResult dst : Becomes arithmetic tables (.moveResult dst) (.moveResult dst)
  | moveResultWide dst : Becomes arithmetic tables (.moveResultWide dst) (.moveResultWide dst)
  | moveResultObject dst : Becomes arithmetic tables (.moveResultObject dst) (.moveResultObject dst)
  | moveObject dst src : Becomes arithmetic tables (.moveObject dst src) (.moveObjectFrom16 dst src)
  | const dst value : Becomes arithmetic tables (.const dst value) (Lowering.const dst value)
  | constString {dst string index} (hIndex : tables.string string = .ok index) :
    Becomes arithmetic tables (.constString dst string) (Lowering.constString dst index)
  | checkCast {reg type index} (hIndex : tables.type type = .ok index) :
    Becomes arithmetic tables (.checkCast reg type) (.checkCast reg index)
  | newArray {dst size type index} (hFirst : dst < 16) (hSecond : size < 16)
      (hIndex : tables.type type = .ok index) :
    Becomes arithmetic tables (.newArray dst size type) (.newArray dst size index)
  | agetObject dst array index :
    Becomes arithmetic tables (.agetObject dst array index) (.agetObject dst array index)
  | aputObject src array index :
    Becomes arithmetic tables (.aputObject src array index) (.aputObject src array index)
  | igetObject {dst object field index} (hFirst : dst < 16) (hSecond : object < 16)
      (hIndex : tables.field field = .ok index) :
    Becomes arithmetic tables (.igetObject dst object field) (.igetObject dst object index)
  | iputObject {src object field index} (hFirst : src < 16) (hSecond : object < 16)
      (hIndex : tables.field field = .ok index) :
    Becomes arithmetic tables (.iputObject src object field) (.iputObject src object index)
  | sgetObject {dst field index} (hIndex : tables.field field = .ok index) :
    Becomes arithmetic tables (.sgetObject dst field) (.sgetObject dst index)
  | invoke {kind method args index i} (hIndex : tables.method method = .ok index)
      (hInvoke : Lowering.invoke arithmetic kind index args = .ok i) :
    Becomes arithmetic tables (.invoke kind method args) i

variable {arithmetic : Arithmetic} {tables : Tables} {op : Operation Slot} {i : Instruction}

theorem becomes_of_lower (h : op.lowerUnder arithmetic tables = .ok i) :
    op.Becomes arithmetic tables i := by
  cases op with
  | constString _ _ | checkCast _ _ | sgetObject _ _ =>
    obtain ⟨index, hIndex, rfl⟩ := bind_pure_eq_ok_iff.mp h
    constructor
    exact hIndex
  | newArray _ _ _ | igetObject _ _ _ | iputObject _ _ _ =>
    obtain ⟨first, hFirst, h⟩ := bind_eq_ok_iff.mp h
    obtain ⟨second, hSecond, h⟩ := bind_eq_ok_iff.mp h
    obtain ⟨index, hIndex, rfl⟩ := bind_pure_eq_ok_iff.mp h
    obtain ⟨hSmall, rfl⟩ := narrow_eq_ok_iff.mp hFirst
    obtain ⟨hSmall', rfl⟩ := narrow_eq_ok_iff.mp hSecond
    constructor
    · exact hSmall
    · exact hSmall'
    · exact hIndex
  | invoke kind method args =>
    obtain ⟨index, hIndex, hInvoke⟩ := bind_eq_ok_iff.mp h
    exact .invoke hIndex hInvoke
  | _ =>
    rw [lowerUnder, pure_eq_ok_iff] at h
    subst h
    constructor

theorem wellFormed_of_lower (h : op.lowerUnder arithmetic tables = .ok i) : i.WellFormed := by
  cases becomes_of_lower h with
  | const dst value => exact wellFormed_const dst value
  | constString hIndex => exact wellFormed_constString _ _
  | newArray hFirst hSecond _ | igetObject hFirst hSecond _ | iputObject hFirst hSecond _ =>
    exact ⟨hFirst, hSecond⟩
  | invoke _ hInvoke => exact wellFormed_of_invoke hInvoke
  | _ => trivial

end Operation

end DexForge
