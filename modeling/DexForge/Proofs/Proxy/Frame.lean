import DexForge.Proofs.Descriptor.Text
import DexForge.Proofs.Instruction.Registers
import DexForge.Proofs.Proxy.Lowering
import DexForge.Proxy.Delegation
import Mathlib.Algebra.GroupWithZero.Nat

/-! # Frames

The operations of a delegating method name registers of its frame only, and have an encoding.
-/
set_option autoImplicit false

namespace DexForge

def ProtoDescriptor.paramWidth (p : ProtoDescriptor) : Nat := (p.params.map TypeDescriptor.width).sum

theorem TypeDescriptor.width_le (type : TypeDescriptor) : type.width ≤ 2 := by
  rw [width]
  split
  · exact Nat.zero_le 2
  split
  · split
    · exact Nat.le_refl 2
    · exact Nat.le_succ 1
  · exact Nat.le_succ 1

theorem ProtoDescriptor.paramRegisters?_eq (p : ProtoDescriptor) :
    p.paramRegisters? =
      if p.paramWidth < 0x100000000 then some (UInt32.ofNat p.paramWidth) else none := by
  have hWidths : (p.params.map fun type => UInt32.ofNat type.width).map UInt32.toNat =
      p.params.map TypeDescriptor.width := by
    rw [List.map_map]
    refine List.map_congr_left fun type _ => UInt32.toNat_ofNat_of_lt ?_
    exact Nat.lt_of_le_of_lt type.width_le (by decide)
  rw [paramRegisters?, Arithmetic.checked_sum32, hWidths]
  rfl

namespace Operation

variable {ρ : TableName → Type}

def registers : Operation ρ → List UInt16
  | returnVoid => []
  | returnValue reg | returnObject reg | checkCast reg _ => [reg.toUInt16]
  | returnWide reg | moveResultWide reg => Instruction.pair reg.toUInt16
  | moveResult dst | moveResultObject dst | const dst _ | constString dst _ | sgetObject dst _ =>
    [dst.toUInt16]
  | moveObject dst src => [dst.toUInt16, src]
  | newArray a b _ | igetObject a b _ | iputObject a b _ => [a.toUInt16, b.toUInt16]
  | agetObject a b c | aputObject a b c => [a.toUInt16, b.toUInt16, c.toUInt16]
  | invoke _ _ args => args

def arguments : Operation ρ → List UInt16
  | invoke _ _ args => args
  | _ => []

end Operation

/-- The registers follow one another, counted without a limit. -/
def Lowering.Consecutive (args : List UInt16) : Prop :=
  ∃ first, args.map UInt16.toNat = List.range' first args.length

/-- Some instruction has room for the operands, and counting a run stays below the last register. -/
def Operation.Encodable {ρ : TableName → Type} : Operation ρ → Prop
  | newArray a b _ | igetObject a b _ | iputObject a b _ => a < 16 ∧ b < 16
  | invoke _ _ args =>
    args.length ≤ 5 ∧ (∀ arg ∈ args, arg < 16) ∨
      args.length ≤ 255 ∧ Lowering.Consecutive args ∧ 65535 ∉ args
  | _ => True

theorem Operation.Encodable.last_not_mem {ρ : TableName → Type} {op : Operation ρ}
    (h : op.Encodable) : 65535 ∉ op.arguments := by
  cases op with
  | invoke kind method args =>
    obtain ⟨-, hArgs⟩ | ⟨-, -, hLast⟩ := h
    · exact fun hMem => absurd (hArgs _ hMem) (by decide)
    · exact hLast
  | _ => exact List.not_mem_nil

namespace Lowering

variable {arithmetic : Arithmetic} {next : UInt16} {args : List UInt16}

theorem add16_one (arithmetic : Arithmetic) (h : next ≠ 65535) :
    arithmetic.add16 next 1 = some (next + 1) ∧ (next + 1).toNat = next.toNat + 1 := by
  have hNext : next.toNat + 1 < 0x10000 := by
    have hBound := next.toNat_lt
    have hLast : next.toNat ≠ 65535 := fun hEq => h (UInt16.toNat.inj hEq)
    omega
  exact ⟨Arithmetic.add16_of_lt hNext, Instruction.toNat_succ hNext⟩

/-- Below the last register both ways of counting follow the numbers. -/
theorem isRun_iff (h : 65535 ∉ args) :
    isRun arithmetic next args = .ok true ↔
      args.map UInt16.toNat = List.range' next.toNat args.length := by
  induction args generalizing next with
  | nil => simp [isRun]
  | cons reg rest ih =>
    obtain ⟨hReg, hRest⟩ := not_or.mp (mt List.mem_cons.mpr h)
    rw [isRun, List.map_cons, List.length_cons, List.range'_succ, List.cons.injEq,
      UInt16.toNat_inj]
    by_cases hSame : reg = next
    · subst hSame
      obtain ⟨hAfter, hNumber⟩ := add16_one arithmetic (Ne.symm hReg)
      simp only [hAfter, if_pos, true_and]
      rw [ih hRest, hNumber]
    · simp only [hSame, if_false, false_and, iff_false]
      split <;> simp

theorem last_not_mem_of_isRun (h : isRun .checked next args = .ok true) : 65535 ∉ args := by
  induction args generalizing next with
  | nil => exact List.not_mem_nil
  | cons reg rest ih =>
    rw [isRun] at h
    split at h
    · cases h
    next after hAfter =>
    split at h
    · next hSame =>
      obtain ⟨hFits, rfl⟩ := Arithmetic.checked_add16_eq_some_iff.mp hAfter
      rw [List.mem_cons, not_or]
      refine ⟨?_, ih h⟩
      rintro rfl
      rw [← hSame] at hFits
      exact absurd hFits (by decide)
    · cases h

theorem isRun_headD_iff (h : 65535 ∉ args) :
    isRun arithmetic (args.headD 0) args = .ok true ↔ Consecutive args := by
  rw [isRun_iff h]
  constructor
  · intro hRun
    exact ⟨_, hRun⟩
  · rintro ⟨first, hRun⟩
    cases args with
    | nil => rfl
    | cons reg rest =>
      have hHead : reg.toNat = first := by
        rw [List.map_cons, List.length_cons, List.range'_succ, List.cons.injEq] at hRun
        exact hRun.1
      rw [List.headD_cons, hHead]
      exact hRun

theorem toUInt16_toUInt8 {reg : UInt16} (h : reg < 16) : reg.toUInt8.toUInt16 = reg := by
  have hReg : reg.toNat < 16 := h
  apply UInt16.toNat.inj
  rw [UInt8.toNat_toUInt16, UInt16.toNat_toUInt8, Nat.mod_eq_of_lt (by omega)]

theorem registers?_const (dst : UInt8) (value : Int32) :
    (const dst value).registers? = some [dst.toUInt16] := by
  simp only [const]
  split
  · rfl
  · split <;> rfl

theorem registers?_constString (dst : UInt8) (string : UInt32) :
    (constString dst string).registers? = some [dst.toUInt16] := by
  rw [constString]
  split <;> rfl

theorem registers?_of_invoke {kind : InvokeKind} {method : UInt16} {i : Instruction}
    (h : invoke arithmetic kind method args = .ok i) (hLast : 65535 ∉ args) :
    i.registers? = some args := by
  obtain ⟨-, hArgs, rfl⟩ | ⟨hLength, hRun, rfl⟩ := invoke_eq_ok h
  · rw [Instruction.registers?, List.map_map]
    refine congrArg some ((List.map_congr_left fun arg hArg => ?_).trans (List.map_id args))
    exact toUInt16_toUInt8 (hArgs arg hArg)
  · have hCount : (UInt8.ofNat args.length).toNat = args.length :=
      UInt8.toNat_ofNat_of_lt (Nat.lt_succ_of_le hLength)
    rw [Instruction.registers?_eq_some_iff, Instruction.touched, hCount,
      (isRun_iff hLast).mp hRun, List.range'_eq_map_range]

end Lowering

namespace Operation

open DexForge.Except Lowering

theorem registers?_of_lower {arithmetic : Arithmetic} {tables : Tables} {op : Operation Slot}
    {i : Instruction} (h : op.lowerUnder arithmetic tables = .ok i)
    (hLast : 65535 ∉ op.arguments) : i.registers? = some op.registers := by
  cases becomes_of_lower h with
  | const dst value => exact registers?_const dst value
  | constString hIndex => exact registers?_constString _ _
  | invoke _ hInvoke => exact registers?_of_invoke hInvoke hLast
  | _ => rfl

/-- The operation has an encoding and stays inside a frame of `frame` registers. -/
structure Fits {ρ : TableName → Type} (frame : Nat) (op : Operation ρ) : Prop where
  registers : ∀ reg ∈ op.registers, reg.toNat < frame
  encodable : op.Encodable

end Operation

theorem HandlerBinding.encoding_of_handlerClass {b : HandlerBinding} {e : SynthesisError}
    (h : b.handlerClass = .error e) : ∃ fault, e = .encoding fault := by
  unfold handlerClass at h
  split at h
  · cases h
    exact ⟨_, rfl⟩
  · split at h
    · cases h
    · cases h
      exact ⟨_, rfl⟩

namespace HandlerBinding

variable {binding : HandlerBinding}

theorem handlerClass_eq_ok_iff {name : ClassName} : binding.handlerClass = .ok name ↔
    ∃ type, TypeDescriptor.parse binding.handler = .ok type ∧ type.className? = some name := by
  rw [handlerClass]
  cases TypeDescriptor.parse binding.handler with
  | error cause => simp
  | ok type =>
    dsimp only
    cases hName : type.className? <;> simp [hName]

theorem text_of_handlerClass {name : ClassName} (h : binding.handlerClass = .ok name) :
    name.text = binding.handler := by
  obtain ⟨type, hParse, hName⟩ := handlerClass_eq_ok_iff.mp h
  rw [← TypeDescriptor.text_of_className? hName, TypeDescriptor.text_of_parse hParse]

theorem text_ofClass_of_handlerClass {name : ClassName} (h : binding.handlerClass = .ok name) :
    (TypeDescriptor.ofClass name).text = binding.handler :=
  (TypeDescriptor.text_of_className? rfl).trans (text_of_handlerClass h)

end HandlerBinding

namespace Delegation

open Operation

/-- The code for the parameters from `position` on, the first of which starts at `register`. -/
def packFrom (position register : Nat) : List TypeDescriptor → List (Operation Request)
  | [] => []
  | type :: rest =>
    packArgument position (UInt16.ofNat register) type ++
      packFrom (position + 1) (register + type.width) rest

theorem code_foldl_add (params : List TypeDescriptor) (position register : Nat)
    (code : Array (Operation Request)) :
    (params.foldl Packing.add ⟨position, UInt16.ofNat register, code⟩).code.toList =
      code.toList ++ packFrom position register params := by
  induction params generalizing position register code with
  | nil => simp [packFrom]
  | cons type rest ih =>
    rw [List.foldl_cons, Packing.add]
    dsimp only
    rw [← UInt16.ofNat_add, ih, packFrom]
    simp

theorem packArguments_eq (params : List TypeDescriptor) :
    packArguments params = packFrom 0 6 params := by
  have h := code_foldl_add params 0 6 #[]
  rwa [List.nil_append] at h

theorem width_of_reference {type : TypeDescriptor} (hVoid : type.isVoid = false)
    (h : type.primitive? = none) : type.width = 1 := by
  simp [TypeDescriptor.width, hVoid, h]

theorem width_of_primitive {type : TypeDescriptor} {p : Primitive} (h : type.primitive? = some p) :
    type.width = if p.isWide then 2 else 1 := by
  have hVoid : type.isVoid = false := by
    cases type with
    | void => cases h
    | field dims element => rfl
  simp [TypeDescriptor.width, hVoid, h]

theorem toNat_register {register : Nat} (h : register < 65536) :
    (UInt16.ofNat register).toNat = register := UInt16.toNat_ofNat_of_lt h

theorem registers_of_primitive {p : Primitive} {register : Nat}
    (h : register + (if p.isWide then 2 else 1) < 65536) :
    (if p.isWide then [UInt16.ofNat register, UInt16.ofNat register + 1]
      else [UInt16.ofNat register]).map UInt16.toNat =
      List.range' register (if p.isWide then 2 else 1) := by
  cases hWide : p.isWide with
  | false =>
    rw [hWide] at h
    simp only [Bool.false_eq_true, if_false, List.map_cons, List.map_nil] at h ⊢
    rw [toNat_register (by omega)]
    rfl
  | true =>
    rw [hWide] at h
    simp only [if_true, List.map_cons, List.map_nil] at h ⊢
    rw [← UInt16.ofNat_one, ← UInt16.ofNat_add, toNat_register (by omega),
      toNat_register (by omega)]
    rfl

theorem fits_box {frame register : Nat} (hFrame : frame < 65536) {p : Primitive}
    (hRegister : register + (if p.isWide then 2 else 1) ≤ frame) (r : Request .method) :
    (Operation.invoke .static r
      (if p.isWide then [UInt16.ofNat register, UInt16.ofNat register + 1]
      else [UInt16.ofNat register]) : Operation Request).Fits frame := by
  have hRun := registers_of_primitive (Nat.lt_of_le_of_lt hRegister hFrame)
  have hMem : ∀ reg ∈ (if p.isWide then [UInt16.ofNat register, UInt16.ofNat register + 1]
      else [UInt16.ofNat register]), reg.toNat < frame := by
    intro reg hReg
    have hNumber := List.mem_map_of_mem (f := UInt16.toNat) hReg
    rw [hRun, List.mem_range'_1] at hNumber
    omega
  refine ⟨hMem, Or.inr ⟨?_, ⟨register, ?_⟩, fun hLast => ?_⟩⟩
  · split <;> exact Nat.le_of_ble_eq_true rfl
  · rw [hRun]
    split <;> rfl
  · have hLarge : 65535 < frame := hMem _ hLast
    omega

theorem fits_low {frame : Nat} (hLow : 6 ≤ frame) {op : Operation Request}
    (hRegisters : (op.registers.all fun reg => reg.toNat < 6) = true) (hEncodable : op.Encodable) :
    op.Fits frame := by
  refine ⟨fun reg hReg => Nat.lt_of_lt_of_le ?_ hLow, hEncodable⟩
  exact of_decide_eq_true (List.all_eq_true.mp hRegisters reg hReg)

theorem fits_packArgument {frame register : Nat} (hLow : 6 ≤ frame) (hFrame : frame < 65536)
    {type : TypeDescriptor} (hVoid : type.isVoid = false) (hRegister : register + type.width ≤ frame)
    (position : Nat) : ∀ op ∈ packArgument position (UInt16.ofNat register) type, op.Fits frame := by
  have hStore : (store boxedRegister).Fits frame := fits_low hLow rfl trivial
  rw [packArgument, List.forall_mem_cons]
  refine ⟨fits_low hLow rfl trivial, ?_⟩
  cases hType : type.primitive? with
  | some p =>
    rw [width_of_primitive hType] at hRegister
    simp only [List.forall_mem_cons]
    exact ⟨fits_box hFrame hRegister _, fits_low hLow rfl trivial, hStore, List.forall_mem_nil _⟩
  | none =>
    rw [width_of_reference hVoid hType] at hRegister
    have hReg := toNat_register (show register < 65536 by omega)
    dsimp only
    split
    · next hSmall =>
      have hByte : (UInt16.ofNat register).toUInt8.toUInt16.toNat = register := by
        have hSmall : (UInt16.ofNat register).toNat < 256 := hSmall
        rw [UInt8.toNat_toUInt16, UInt16.toNat_toUInt8, Nat.mod_eq_of_lt hSmall, hReg]
      rw [List.forall_mem_singleton]
      refine ⟨?_, trivial⟩
      simp only [store, Operation.registers, List.forall_mem_cons]
      refine ⟨by omega, ?_, ?_, List.forall_mem_nil _⟩
      · exact Nat.lt_of_lt_of_le (by decide) hLow
      · exact Nat.lt_of_lt_of_le (by decide) hLow
    · simp only [List.forall_mem_cons]
      refine ⟨⟨?_, trivial⟩, hStore, List.forall_mem_nil _⟩
      simp only [Operation.registers, List.forall_mem_cons]
      exact ⟨Nat.lt_of_lt_of_le (by decide) hLow, by omega, List.forall_mem_nil _⟩

theorem fits_packFrom {frame : Nat} (hLow : 6 ≤ frame) (hFrame : frame < 65536)
    {params : List TypeDescriptor} (hVoid : ∀ type ∈ params, type.isVoid = false)
    {register : Nat} (hRegister : register + (params.map TypeDescriptor.width).sum ≤ frame)
    (position : Nat) : ∀ op ∈ packFrom position register params, op.Fits frame := by
  induction params generalizing register position with
  | nil => exact List.forall_mem_nil _
  | cons type rest ih =>
    rw [List.map_cons, List.sum_cons] at hRegister
    rw [List.forall_mem_cons] at hVoid
    rw [packFrom, List.forall_mem_append]
    exact ⟨fits_packArgument hLow hFrame hVoid.1 (by omega) position,
      ih hVoid.2 (by omega) (position + 1)⟩

/-- What a proxied method needs, and its body. -/
structure Bodied (ctx : Context) (spec : MethodSpec) (ordinal : Nat) (handler : ClassName)
    (body : MethodBody Request) : Prop where
  values : ∀ type ∈ spec.params, type.isVoid = false
  registers_lt : 6 + spec.proto.paramWidth < 65536
  ordinal_lt : ordinal < 0x80000000
  handlerClass : ctx.binding.handlerClass = .ok handler
  eq : body =
    { spec
      method := .method ctx.owner spec.name spec.proto
      registers := UInt16.ofNat (6 + spec.proto.paramWidth)
      ins := UInt16.ofNat (1 + spec.proto.paramWidth)
      outs := 4
      code :=
        .igetObject resultRegister selfRegister (ctx.handlerField handler) ::
          loadIdentity ctx spec ordinal ++ newArguments spec.params.length ++
          packArguments spec.params ++ callHandler ctx.binding :: giveBack spec.returns }

theorem frameRegisters?_eq (proto : ProtoDescriptor) :
    frameRegisters? proto =
      if 6 + proto.paramWidth < 0x100000000 then some (UInt32.ofNat (6 + proto.paramWidth))
      else none := by
  rw [frameRegisters?, ProtoDescriptor.paramRegisters?_eq]
  by_cases hParams : proto.paramWidth < 0x100000000
  · have hNumber : (UInt32.ofNat proto.paramWidth).toNat = proto.paramWidth :=
      UInt32.toNat_ofNat_of_lt hParams
    rw [if_pos hParams]
    change Arithmetic.checked.add32 6 (UInt32.ofNat proto.paramWidth) = _
    rw [Arithmetic.add32, Arithmetic.keep_checked, hNumber, UInt32.ofNat_add]
    simp [UInt32.size]
  · rw [if_neg hParams, if_neg (by omega)]
    rfl

theorem ofNat_sub_temporaries (n : Nat) :
    UInt16.ofNat (6 + n) - temporaries.toUInt16 = UInt16.ofNat (1 + n) := by
  rw [show 6 + n = 1 + n + 5 by omega, UInt16.ofNat_add]
  exact UInt16.add_sub_cancel _ _

/-- How the making of a body ends: with the first check that fails, or with the body. -/
inductive Made (ctx : Context) (spec : MethodSpec) (ordinal : Nat) :
    Except SynthesisError (MethodBody Request) → Prop where
  | voidParameter {type : TypeDescriptor} (position : Nat) (hMem : type ∈ spec.params)
      (hVoid : type.isVoid = true) :
    Made ctx spec ordinal (.error (.unsupportedSignature spec.signature (.voidParameter position)))
  | overflow (hLarge : 0x100000000 ≤ 6 + spec.proto.paramWidth) :
    Made ctx spec ordinal (.error .arithmeticOverflow)
  | registers (hValues : ∀ type ∈ spec.params, type.isVoid = false)
      (hLarge : 65535 < 6 + spec.proto.paramWidth)
      (hCounted : 6 + spec.proto.paramWidth < 0x100000000) :
    Made ctx spec ordinal (.error (.unsupportedSignature spec.signature .registers))
  | ordinal (hFrame : 6 + spec.proto.paramWidth ≤ 65535) (hLarge : 0x80000000 ≤ ordinal) :
    Made ctx spec ordinal (.error (.encoding (.ordinal ordinal)))
  | handler {fault : EncodingFault} (hFrame : 6 + spec.proto.paramWidth ≤ 65535)
      (hOrdinal : ordinal < 0x80000000)
      (hHandler : ctx.binding.handlerClass = .error (.encoding fault)) :
    Made ctx spec ordinal (.error (.encoding fault))
  | body {handler : ClassName} {body : MethodBody Request}
      (h : Bodied ctx spec ordinal handler body) : Made ctx spec ordinal (.ok body)

theorem made_body (ctx : Context) (spec : MethodSpec) (ordinal : Nat) :
    Made ctx spec ordinal (Delegation.body ctx spec ordinal) := by
  rw [Delegation.body]
  split
  · next position hVoid =>
    obtain ⟨hBound, hType, -⟩ := List.findIdx?_eq_some_iff_getElem.mp hVoid
    exact .voidParameter position (List.getElem_mem hBound) hType
  · next hVoid =>
    have hValues : ∀ type ∈ spec.params, type.isVoid = false := List.findIdx?_eq_none_iff.mp hVoid
    rw [frameRegisters?_eq]
    by_cases hCounted : 6 + spec.proto.paramWidth < 0x100000000
    case neg =>
      rw [if_neg hCounted]
      exact .overflow (Nat.le_of_not_lt hCounted)
    rw [if_pos hCounted]
    dsimp only
    have hLimit : 65536 ≤ UInt32.ofNat (6 + spec.proto.paramWidth) ↔
        65536 ≤ 6 + spec.proto.paramWidth := by
      rw [UInt32.le_iff_toNat_le, UInt32.toNat_ofNat_of_lt' hCounted]
      rfl
    split
    · next hLarge => exact .registers hValues (hLimit.mp hLarge) hCounted
    next hSmall =>
    rw [hLimit] at hSmall
    split
    · next hLarge => exact .ordinal (by omega) hLarge
    next hOrdinal =>
    split
    · next e hHandler =>
      obtain ⟨fault, rfl⟩ := HandlerBinding.encoding_of_handlerClass hHandler
      exact .handler (by omega) (by omega) hHandler
    · next handler hHandler =>
      refine .body ⟨hValues, by omega, by omega, hHandler, ?_⟩
      rw [UInt32.toUInt16_ofNat', ofNat_sub_temporaries]

theorem body_eq_ok {ctx : Context} {spec : MethodSpec} {ordinal : Nat} {body : MethodBody Request}
    (h : Delegation.body ctx spec ordinal = .ok body) :
    ∃ handler, Bodied ctx spec ordinal handler body := by
  have hMade := made_body ctx spec ordinal
  rw [h] at hMade
  cases hMade with
  | body hBodied => exact ⟨_, hBodied⟩

theorem forall_lt_of_all {args : List UInt16} (h : args.all (· < 16) = true) :
    ∀ arg ∈ args, arg < 16 :=
  fun arg hArg => of_decide_eq_true (List.all_eq_true.mp h arg hArg)

section Parts

variable {frame : Nat} (hLow : 6 ≤ frame)
include hLow

theorem fits_loadIdentity (ctx : Context) (spec : MethodSpec) (ordinal : Nat) :
    ∀ op ∈ loadIdentity ctx spec ordinal, op.Fits frame := by
  rw [loadIdentity]
  cases ctx.binding.identity with
  | methodArray field =>
    simp only [List.forall_mem_cons]
    exact ⟨fits_low hLow rfl trivial, fits_low hLow rfl trivial, fits_low hLow rfl trivial,
      List.forall_mem_nil _⟩
  | index => exact List.forall_mem_singleton.mpr (fits_low hLow rfl trivial)
  | name => exact List.forall_mem_singleton.mpr (fits_low hLow rfl trivial)

theorem fits_newArguments (count : Nat) : ∀ op ∈ newArguments count, op.Fits frame := by
  simp only [newArguments, List.forall_mem_cons]
  exact ⟨fits_low hLow rfl trivial, fits_low hLow rfl ⟨by decide, by decide⟩, List.forall_mem_nil _⟩

theorem fits_callHandler (binding : HandlerBinding) : (callHandler binding).Fits frame :=
  fits_low hLow rfl (Or.inl ⟨by decide, forall_lt_of_all rfl⟩)

theorem fits_giveBack (type : TypeDescriptor) : ∀ op ∈ giveBack type, op.Fits frame := by
  rw [giveBack]
  split
  · exact List.forall_mem_singleton.mpr (fits_low hLow rfl trivial)
  · rw [List.forall_mem_cons]
    refine ⟨fits_low hLow rfl trivial, ?_⟩
    cases type.primitive? with
    | none =>
      simp only [List.forall_mem_cons]
      exact ⟨fits_low hLow rfl trivial, fits_low hLow rfl trivial, List.forall_mem_nil _⟩
    | some p =>
      simp only [List.forall_mem_append, List.forall_mem_cons]
      refine ⟨⟨fits_low hLow rfl trivial, fits_low hLow rfl (Or.inl ⟨by simp, forall_lt_of_all rfl⟩),
        List.forall_mem_nil _⟩, ?_⟩
      split
      · simp only [List.forall_mem_cons]
        exact ⟨fits_low hLow rfl trivial, fits_low hLow rfl trivial, List.forall_mem_nil _⟩
      · simp only [List.forall_mem_cons]
        exact ⟨fits_low hLow rfl trivial, fits_low hLow rfl trivial, List.forall_mem_nil _⟩

end Parts

variable {ctx : Context} {spec : MethodSpec} {ordinal : Nat} {handler : ClassName}
  {body : MethodBody Request}

theorem Bodied.toNat_registers (h : Bodied ctx spec ordinal handler body) :
    body.registers.toNat = 6 + spec.proto.paramWidth := by
  rw [h.eq]
  exact toNat_register h.registers_lt

theorem Bodied.toNat_ins (h : Bodied ctx spec ordinal handler body) :
    body.ins.toNat = 1 + spec.proto.paramWidth := by
  have hFrame := h.registers_lt
  rw [h.eq]
  exact toNat_register (by omega)

theorem Bodied.fits (h : Bodied ctx spec ordinal handler body) :
    ∀ op ∈ body.code, op.Fits body.registers.toNat := by
  have hLow : 6 ≤ 6 + spec.proto.paramWidth := Nat.le_add_right _ _
  have hPack : ∀ op ∈ packArguments spec.params, op.Fits (6 + spec.proto.paramWidth) := by
    rw [packArguments_eq]
    exact fits_packFrom hLow h.registers_lt h.values (Nat.le_refl _) 0
  rw [h.toNat_registers, h.eq]
  simp only [List.forall_mem_append, List.forall_mem_cons]
  exact ⟨⟨⟨⟨fits_low hLow rfl ⟨by decide, by decide⟩, fits_loadIdentity hLow ctx spec ordinal⟩,
    fits_newArguments hLow _⟩, hPack⟩, fits_callHandler hLow ctx.binding,
    fits_giveBack hLow spec.returns⟩

theorem constructorBody_eq_ok {superclass : String}
    (h : constructorBody ctx superclass = .ok body) :
    ∃ handler, ctx.binding.handlerClass = .ok handler ∧ body =
      { spec := ⟨Name.constructor, ⟨.void, [.ofClass handler]⟩, constructorAccess⟩
        method := .method ctx.owner Name.constructor ⟨.void, [.ofClass handler]⟩
        registers := 2
        ins := 2
        outs := 1
        code :=
          [.invoke .direct (.method superclass Name.constructor ⟨.void, []⟩) [0],
           .iputObject 1 0 (ctx.handlerField handler),
           .returnVoid] } := by
  rw [constructorBody] at h
  split at h
  · cases h
  · next handler hHandler =>
    cases h
    exact ⟨handler, hHandler, rfl⟩

theorem fits_of_constructorBody {superclass : String}
    (h : constructorBody ctx superclass = .ok body) :
    ∀ op ∈ body.code, op.Fits body.registers.toNat := by
  obtain ⟨handler, -, rfl⟩ := constructorBody_eq_ok h
  simp only [List.forall_mem_cons]
  exact ⟨⟨by simp [Operation.registers], Or.inl ⟨by simp, by simp⟩⟩,
    ⟨by simp [Operation.registers], by decide, by decide⟩,
    ⟨by simp [Operation.registers], trivial⟩, List.forall_mem_nil _⟩

end Delegation

end DexForge
