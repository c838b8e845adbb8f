import DexForge.Proofs.Pool.Finishing
import DexForge.Proofs.Proxy.Agreement
import DexForge.Proofs.Proxy.Frame

/-! # Resolved instructions

An instruction of a container is an operation on what the container finds at its index. Lowering an
operation and resolving the instruction gives the operation back, on the texts of its entry.
-/
set_option autoImplicit false

namespace DexForge

variable {σ : TableName → Type} {lookup : (t : TableName) → UInt32 → Option (σ t)}

/-- The operation that an instruction performs on what is found at its index. The moves of a plain
or a wide value are no operations. -/
def Instruction.resolve? (lookup : (t : TableName) → UInt32 → Option (σ t)) (i : Instruction) :
    Option (Operation σ) :=
  match i with
  | .returnVoid => some .returnVoid
  | .returnValue reg => some (.returnValue reg)
  | .returnWide reg => some (.returnWide reg)
  | .returnObject reg => some (.returnObject reg)
  | .moveResult dst => some (.moveResult dst)
  | .moveResultWide dst => some (.moveResultWide dst)
  | .moveResultObject dst => some (.moveResultObject dst)
  | .moveFrom16 _ _ | .moveWideFrom16 _ _ => none
  | .moveObjectFrom16 dst src => some (.moveObject dst src)
  | .const4 dst value => some (.const dst value.toInt32)
  | .const16 dst value => some (.const dst value.toInt32)
  | .const32 dst value => some (.const dst value)
  | .constString dst string => (lookup .string string.toUInt32).map (.constString dst)
  | .constStringJumbo dst string => (lookup .string string).map (.constString dst)
  | .checkCast reg type => (lookup .type type.toUInt32).map (.checkCast reg)
  | .newArray dst size type => (lookup .type type.toUInt32).map (.newArray dst size)
  | .agetObject dst array index => some (.agetObject dst array index)
  | .aputObject src array index => some (.aputObject src array index)
  | .igetObject dst object field => (lookup .field field.toUInt32).map (.igetObject dst object)
  | .iputObject src object field => (lookup .field field.toUInt32).map (.iputObject src object)
  | .sgetObject dst field => (lookup .field field.toUInt32).map (.sgetObject dst)
  | .invoke kind method _ | .invokeRange kind method _ _ => do
    return .invoke kind (← lookup .method method.toUInt32) (← i.registers?)

theorem Operation.Agrees.fits {ρ : TableName → Type} {R : ∀ t, ρ t → σ t → Prop} {a : Operation ρ}
    {b : Operation σ} (h : a.Agrees R b) {frame : Nat} (hFits : b.Fits frame) : a.Fits frame := by
  cases h <;> exact ⟨hFits.registers, hFits.encodable⟩

namespace Lowering

theorem resolve?_const (dst : UInt8) (value : Int32) :
    (const dst value).resolve? lookup = some (.const dst value) := by
  simp only [const]
  split
  · next h =>
    obtain ⟨-, hLow, hHigh⟩ := h
    have hSame : value.toInt8.toInt32 = value := by
      apply Int32.toInt.inj
      rw [Int8.toInt_toInt32, toInt_toInt8 hLow hHigh]
    rw [Instruction.resolve?, hSame]
  · split
    · next h =>
      have hSame : value.toInt16.toInt32 = value := by
        apply Int32.toInt.inj
        rw [Int16.toInt_toInt32, Int32.toInt_toInt16]
        exact Int.bmod_eq_of_le (by omega) (by omega)
      rw [Instruction.resolve?, hSame]
    · rfl

theorem resolve?_constString {string : UInt32} {x : σ .string}
    (h : lookup .string string = some x) (dst : UInt8) :
    (constString dst string).resolve? lookup = some (.constString dst x) := by
  rw [constString]
  split
  · next hSmall =>
    rw [Instruction.resolve?, toUInt32_toUInt16 hSmall, h]
    rfl
  · rw [Instruction.resolve?, h]
    rfl

variable {arithmetic : Arithmetic} {kind : InvokeKind} {method : UInt16} {args : List UInt16}

theorem resolve?_invoke {x : σ .method} {i : Instruction}
    (hLookup : lookup .method method.toUInt32 = some x)
    (h : invoke arithmetic kind method args = .ok i) (hLast : 65535 ∉ args) :
    i.resolve? lookup = some (.invoke kind x args) := by
  have hRegisters := registers?_of_invoke h hLast
  obtain ⟨-, -, rfl⟩ | ⟨-, -, rfl⟩ := invoke_eq_ok h
  · rw [Instruction.resolve?, hRegisters, hLookup]
    rfl
  · rw [Instruction.resolve?, hRegisters, hLookup]
    rfl

theorem exists_invoke {ρ : TableName → Type} {x : ρ .method}
    (h : (Operation.invoke kind x args).Encodable) (method : UInt16) :
    ∃ i, invoke arithmetic kind method args = .ok i := by
  rw [invoke]
  split
  · exact ⟨_, rfl⟩
  · next hNarrow =>
    obtain ⟨hLength, hArgs⟩ | ⟨hLength, hRun, hLast⟩ := h
    · exact absurd ⟨hLength, by simpa using hArgs⟩ hNarrow
    · dsimp only
      rw [(isRun_headD_iff hLast).mpr hRun]
      exact ⟨_, if_pos (by rw [decide_eq_true hLength]; rfl)⟩

end Lowering

namespace Operation

open Lowering

variable {arithmetic : Arithmetic} {tables : Tables}

def Finds (tables : Tables) (lookup : (t : TableName) → UInt32 → Option (σ t)) (t : TableName)
    (slot : Slot t) (x : σ t) : Prop :=
  ∃ i, tables.index slot = .ok i ∧ lookup t i = some x

theorem Finds.exists_narrow {t : TableName} {slot : Slot t} {x : σ t}
    (h : Finds tables lookup t slot x) {place : Except SynthesisError UInt16}
    (hIndex : tables.index slot = place.map UInt16.toUInt32) :
    ∃ i, place = .ok i ∧ lookup t i.toUInt32 = some x := by
  obtain ⟨_, h, hLookup⟩ := h
  rw [hIndex, Except.map_eq_ok_iff] at h
  obtain ⟨i, hPlace, rfl⟩ := h
  exact ⟨i, hPlace, hLookup⟩

/-- An operation that has an encoding is lowered to an instruction that performs it. -/
theorem exists_lower {op : Operation Slot} {action : Operation σ}
    (h : op.Agrees (Finds tables lookup) action) (hEncodable : op.Encodable) :
    ∃ i, op.lowerUnder arithmetic tables = .ok i ∧ i.resolve? lookup = some action := by
  cases h with
  | const dst value => exact ⟨_, rfl, resolve?_const dst value⟩
  | constString hFinds =>
    obtain ⟨index, hIndex, hLookup⟩ := hFinds
    refine ⟨_, ?_, resolve?_constString hLookup _⟩
    rw [lowerUnder, show tables.string _ = .ok index from hIndex]
    rfl
  | checkCast hFinds =>
    obtain ⟨index, hIndex, hLookup⟩ := hFinds.exists_narrow rfl
    refine ⟨.checkCast _ index, ?_, congrArg (Option.map _) hLookup⟩
    rw [lowerUnder, hIndex]
    rfl
  | sgetObject hFinds =>
    obtain ⟨index, hIndex, hLookup⟩ := hFinds.exists_narrow rfl
    refine ⟨.sgetObject _ index, ?_, congrArg (Option.map _) hLookup⟩
    rw [lowerUnder, hIndex]
    rfl
  | newArray hFinds =>
    obtain ⟨index, hIndex, hLookup⟩ := hFinds.exists_narrow rfl
    refine ⟨.newArray _ _ index, ?_, congrArg (Option.map _) hLookup⟩
    rw [lowerUnder, narrow_eq_ok_iff.mpr ⟨hEncodable.1, rfl⟩,
      narrow_eq_ok_iff.mpr ⟨hEncodable.2, rfl⟩, hIndex]
    rfl
  | igetObject hFinds =>
    obtain ⟨index, hIndex, hLookup⟩ := hFinds.exists_narrow rfl
    refine ⟨.igetObject _ _ index, ?_, congrArg (Option.map _) hLookup⟩
    rw [lowerUnder, narrow_eq_ok_iff.mpr ⟨hEncodable.1, rfl⟩,
      narrow_eq_ok_iff.mpr ⟨hEncodable.2, rfl⟩, hIndex]
    rfl
  | iputObject hFinds =>
    obtain ⟨index, hIndex, hLookup⟩ := hFinds.exists_narrow rfl
    refine ⟨.iputObject _ _ index, ?_, congrArg (Option.map _) hLookup⟩
    rw [lowerUnder, narrow_eq_ok_iff.mpr ⟨hEncodable.1, rfl⟩,
      narrow_eq_ok_iff.mpr ⟨hEncodable.2, rfl⟩, hIndex]
    rfl
  | invoke hFinds =>
    obtain ⟨index, hIndex, hLookup⟩ := hFinds.exists_narrow rfl
    obtain ⟨i, hInvoke⟩ := exists_invoke hEncodable index
    refine ⟨i, ?_, resolve?_invoke hLookup hInvoke hEncodable.last_not_mem⟩
    rw [lowerUnder, hIndex]
    exact hInvoke
  | _ => exact ⟨_, rfl, rfl⟩

end Operation

end DexForge
