import DexForge.Proofs.Descriptor.Text
import DexForge.Proofs.Synthesis.Outline
import Mathlib.Data.Nat.Bitwise

/-! # What a description has to be by itself

The checks that need no pools accept a description exactly when its class texts, names and methods
are as they should be, read off the description's own words.
-/
set_option autoImplicit false

namespace DexForge

open DexForge.Except

namespace AccessFlags

theorem contains_iff_testBit {a b : AccessFlags} {i : Nat} (hb : b.bits.toNat = 2 ^ i) :
    a.contains b = true ↔ a.bits.toNat.testBit i = true := by
  rw [contains, beq_iff_eq, ← UInt32.toNat_inj, UInt32.toNat_and, hb, Nat.and_two_pow]
  cases a.bits.toNat.testBit i with
  | false => simpa using (Nat.two_pow_pos i).ne
  | true => simp

theorem testBit_or (a b : AccessFlags) (i : Nat) :
    (a ||| b).bits.toNat.testBit i = (a.bits.toNat.testBit i || b.bits.toNat.testBit i) := by
  have hBits : (a ||| b).bits = a.bits ||| b.bits := rfl
  rw [hBits, UInt32.toNat_or, Nat.testBit_or]

theorem inter_eq_ite {a b : AccessFlags} {i : Nat} (hb : b.bits.toNat = 2 ^ i) :
    a.inter b = if a.contains b then b else none := by
  have hBits : (a.bits &&& b.bits).toNat = (a.bits.toNat.testBit i).toNat * 2 ^ i := by
    rw [UInt32.toNat_and, hb, Nat.and_two_pow]
  have hContains := contains_iff_testBit (a := a) hb
  rw [inter]
  split
  · next hSet =>
    rw [hContains.mp hSet, Bool.toNat_true, Nat.one_mul, ← hb, UInt32.toNat_inj] at hBits
    rw [hBits]
  · next hClear =>
    have hBit : a.bits.toNat.testBit i = false := by simpa using mt hContains.mpr hClear
    rw [hBit, Bool.toNat_false, Nat.zero_mul] at hBits
    exact congrArg mk (UInt32.toNat_inj.mp hBits)

end AccessFlags

namespace AccessKeyword

def bit : AccessKeyword → Nat
  | isPublic => 0
  | isPrivate => 1
  | isProtected => 2
  | isStatic => 3
  | isFinal => 4
  | isSynchronized => 5
  | isBridge => 6
  | isVarargs => 7
  | isNative => 8
  | isAbstract => 10
  | isSynthetic => 12

theorem toNat_flag (keyword : AccessKeyword) : keyword.flag.bits.toNat = 2 ^ keyword.bit := by
  cases keyword <;> rfl

theorem bit_injective {a b : AccessKeyword} (h : a.bit = b.bit) : a = b := by
  cases a <;> cases b <;> first | rfl | cases h

theorem testBit_flag (a b : AccessKeyword) : a.flag.bits.toNat.testBit b.bit = decide (a = b) := by
  rw [toNat_flag, Nat.testBit_two_pow]
  exact decide_eq_decide.mpr ⟨bit_injective, congrArg bit⟩

end AccessKeyword

namespace MethodDescription

variable {m : MethodDescription}

theorem contains_flags_iff {keyword : AccessKeyword} :
    m.flags.contains keyword.flag = true ↔ keyword ∈ m.access := by
  have hFold : ∀ (access : List AccessKeyword) (flags : AccessFlags),
      (access.foldl (fun flags keyword => flags ||| keyword.flag) flags).bits.toNat.testBit
        keyword.bit = true ↔ flags.bits.toNat.testBit keyword.bit = true ∨ keyword ∈ access := by
    intro access
    induction access with
    | nil => simp
    | cons first access ih =>
      intro flags
      rw [List.foldl_cons, ih, AccessFlags.testBit_or, AccessKeyword.testBit_flag, Bool.or_eq_true,
        decide_eq_true_eq, List.mem_cons, or_assoc]
      rw [eq_comm (a := first)]
  rw [AccessFlags.contains_iff_testBit keyword.toNat_flag, flags, hFold]
  simp [AccessFlags.none]

theorem intersects_static_private_iff :
    m.flags.intersects (.isStatic ||| .isPrivate) = true ↔
      .isStatic ∈ m.access ∨ .isPrivate ∈ m.access := by
  rw [← contains_flags_iff, ← contains_flags_iff,
    AccessFlags.contains_iff_testBit (AccessKeyword.toNat_flag .isStatic),
    AccessFlags.contains_iff_testBit (AccessKeyword.toNat_flag .isPrivate)]
  have hMask : (AccessFlags.isStatic ||| AccessFlags.isPrivate).bits.toNat = 2 ^ 3 ||| 2 ^ 1 := rfl
  rw [AccessFlags.intersects, bne_iff_ne, ne_eq, ← UInt32.toNat_inj, UInt32.toNat_and, hMask,
    Nat.and_or_distrib_left, Nat.and_two_pow, Nat.and_two_pow, AccessKeyword.bit, AccessKeyword.bit]
  cases m.flags.bits.toNat.testBit 3 <;> cases m.flags.bits.toNat.testBit 1 <;> simp

theorem overriding_flags (m : MethodDescription) : m.flags.overriding =
    (if .isProtected ∈ m.access ∧ .isPublic ∉ m.access then .isProtected else .isPublic) |||
      (if .isVarargs ∈ m.access then .isVarargs else .none) := by
  have hKeyword : ∀ keyword : AccessKeyword,
      m.flags.contains keyword.flag = true ↔ keyword ∈ m.access := fun _ => contains_flags_iff
  have hProtected := hKeyword .isProtected
  have hPublic := hKeyword .isPublic
  have hVarargs := hKeyword .isVarargs
  have hInter : m.flags.inter .isVarargs =
      if m.flags.contains .isVarargs then .isVarargs else .none :=
    AccessFlags.inter_eq_ite (AccessKeyword.toNat_flag .isVarargs)
  simp only [AccessKeyword.flag] at hProtected hPublic hVarargs
  simp only [AccessFlags.overriding, hInter, Bool.and_eq_true, Bool.not_eq_true',
    ← Bool.not_eq_true, hProtected, hPublic, hVarargs]

theorem isOverridable_iff : m.isOverridable = true ↔ .isStatic ∉ m.access ∧ .isPrivate ∉ m.access ∧
    m.name ≠ Name.constructor ∧ m.name ≠ Name.classInitializer := by
  rw [isOverridable, Bool.not_eq_true', Bool.or_eq_false_iff, Bool.or_eq_false_iff,
    ← Bool.not_eq_true, intersects_static_private_iff, beq_eq_false_iff_ne, beq_eq_false_iff_ne,
    not_or, and_assoc, and_assoc]

end MethodDescription

instance Except.decidableExistsOk {ε α : Type} : (x : Except ε α) → Decidable (∃ a, x = .ok a)
  | .ok a => isTrue ⟨a, rfl⟩
  | .error _ => isFalse nofun

def IsClassText (text : String) : Prop :=
  (∃ type, TypeDescriptor.parse text = .ok type) ∧ text.toList.head? = some 'L'

instance (text : String) : Decidable (IsClassText text) := inferInstanceAs (Decidable (_ ∧ _))

namespace TypeDescriptor

/-- Of all types only classes have a text that starts with this letter. -/
theorem exists_className?_iff (type : TypeDescriptor) :
    (∃ name, type.className? = some name) ↔ type.text.toList.head? = some 'L' := by
  cases type with
  | void => simp [className?, text]
  | field dims element =>
    rw [toList_text_field]
    by_cases hDims : dims = 0
    · subst hDims
      cases element with
      | object name => simp [className?, ElementType.toList_text]
      | primitive p => cases p <;> simp [className?, ElementType.toList_text, Primitive.letter]
    · obtain ⟨n, hn⟩ : ∃ n, dims.val = n + 1 :=
        Nat.exists_eq_succ_of_ne_zero fun hZero => hDims (Fin.ext hZero)
      have hNone : (field dims element).className? = none := by
        rw [className?]
        intro name hField
        cases hField
        exact hDims rfl
      simp [hNone, hn, List.replicate_succ]

theorem className_of_parse_iff {text : String} :
    (∃ type name, parse text = .ok type ∧ type.className? = some name) ↔ IsClassText text := by
  constructor
  · rintro ⟨type, name, hParse, hName⟩
    refine ⟨⟨type, hParse⟩, ?_⟩
    rw [← text_of_parse hParse]
    exact (exists_className?_iff type).mp ⟨name, hName⟩
  · rintro ⟨⟨type, hParse⟩, hHead⟩
    rw [← text_of_parse hParse] at hHead
    obtain ⟨name, hName⟩ := (exists_className?_iff type).mpr hHead
    exact ⟨type, name, hParse, hName⟩

theorem isVoid_iff_of_parse {text : String} {type : TypeDescriptor} (h : parse text = .ok type) :
    type.isVoid = true ↔ text = "V" := by
  rw [← text_of_parse h]
  cases type with
  | void => simp [isVoid, TypeDescriptor.text]
  | field dims element =>
    simp only [isVoid, Bool.false_eq_true, false_iff]
    exact text_field_ne_void dims element

def read (text : String) : TypeDescriptor :=
  match parse text with
  | .ok type => type
  | .error _ => .void

theorem read_of_parse {text : String} {type : TypeDescriptor} (h : parse text = .ok type) :
    read text = type := by
  rw [read, h]

/-- Registers of a value, by the text of its type: two for `J` and `D`. -/
def registersOf (text : String) : Nat := if text = "J" ∨ text = "D" then 2 else 1

theorem registersOf_text {type : TypeDescriptor} (hVoid : type.isVoid = false) :
    registersOf type.text = type.width := by
  cases hType : type.primitive? with
  | some p =>
    rw [Delegation.width_of_primitive hType, eq_of_primitive? hType]
    cases p <;> rfl
  | none =>
    have hLong : type.text ≠ "J" := by
      intro hText
      obtain rfl : type = ofPrimitive .long := text_injective hText
      cases hType
    have hDouble : type.text ≠ "D" := by
      intro hText
      obtain rfl : type = ofPrimitive .double := text_injective hText
      cases hType
    rw [Delegation.width_of_reference hVoid hType, registersOf, if_neg (not_or.mpr ⟨hLong, hDouble⟩)]

end TypeDescriptor

namespace MethodDescription

structure Proxiable (m : MethodDescription) : Prop where
  name : Name.isSimple m.name = true
  params : ∀ text ∈ m.params, text ≠ "V" ∧ ∃ type, TypeDescriptor.parse text = .ok type
  returns : ∃ type, TypeDescriptor.parse m.returns = .ok type
  notFinal : .isFinal ∉ m.access

instance (m : MethodDescription) : Decidable m.Proxiable :=
  decidable_of_iff (_ ∧ _ ∧ _ ∧ _)
    ⟨fun h => ⟨h.1, h.2.1, h.2.2.1, h.2.2.2⟩, fun h => ⟨h.name, h.params, h.returns, h.notFinal⟩⟩

def declared (m : MethodDescription) : MethodSpec where
  name := m.name
  proto := ⟨.read m.returns, m.params.map .read⟩
  access := m.flags

/-- The words of a declaration and the types that they are read as. -/
structure Reads (m : MethodDescription) (spec : MethodSpec) : Prop where
  simple : Name.isSimple m.name = true
  name : spec.name = m.name
  params : List.Forall₂ (fun text type => TypeDescriptor.parse text = .ok type ∧ text ≠ "V")
    m.params spec.params
  returns : TypeDescriptor.parse m.returns = .ok spec.returns
  access : spec.access = m.flags

variable {m : MethodDescription} {spec : MethodSpec}

theorem param_eq_ok_iff {position : Nat} {text : String} {type : TypeDescriptor} :
    m.param position text = .ok type ↔ TypeDescriptor.parse text = .ok type ∧ text ≠ "V" := by
  rw [param]
  cases hParse : TypeDescriptor.parse text with
  | error cause => simp
  | ok type' =>
    have hVoid := TypeDescriptor.isVoid_iff_of_parse hParse
    dsimp only
    split
    · next hIs => simp [hVoid.mp hIs]
    · next hIs => simp [mt hVoid.mpr hIs]

theorem spec_eq_ok_iff : m.spec = .ok spec ↔ m.Reads spec := by
  -- the position of a parameter shows in errors only
  have hParams : ∀ types, (m.params.zipIdx.mapM fun x => m.param x.2 x.1) = .ok types ↔
      List.Forall₂ (fun text type => TypeDescriptor.parse text = .ok type ∧ text ≠ "V")
        m.params types := by
    intro types
    conv_rhs => rw [← List.zipIdx_map_fst 0 m.params]
    rw [mapM_eq_ok_iff, List.forall₂_map_left_iff]
    simp only [param_eq_ok_iff]
  rw [MethodDescription.spec]
  split
  · next hName =>
    constructor
    · intro h
      cases h
    · intro h
      rw [h.simple] at hName
      cases hName
  · next hName =>
    rw [Bool.not_eq_true', Bool.not_eq_false] at hName
    rw [bind_eq_ok_iff]
    constructor
    · rintro ⟨types, hTypes, hReturns⟩
      split at hReturns
      · cases hReturns
      · next returns hParse =>
        cases hReturns
        exact ⟨hName, rfl, (hParams types).mp hTypes, hParse, rfl⟩
    · intro h
      obtain ⟨name, ⟨returns, params⟩, access⟩ := spec
      refine ⟨params, (hParams params).mpr h.params, ?_⟩
      rw [h.returns, ← h.name, ← h.access]
      rfl

namespace Reads

theorem texts (h : m.Reads spec) : spec.params.map TypeDescriptor.text = m.params := by
  rw [← List.forall₂_eq_eq_eq, List.forall₂_map_left_iff]
  exact h.params.flip.imp fun _ _ hType => TypeDescriptor.text_of_parse hType.1

theorem eq_declared (h : m.Reads spec) : spec = m.declared := by
  obtain ⟨name, ⟨returns, params⟩, access⟩ := spec
  have hParams : params = m.params.map .read := by
    rw [← List.forall₂_eq_eq_eq, List.forall₂_map_right_iff]
    exact h.params.flip.imp fun _ _ hType => (TypeDescriptor.read_of_parse hType.1).symm
  have hReturns : returns = .read m.returns := (TypeDescriptor.read_of_parse h.returns).symm
  rw [declared, ← hParams, ← hReturns, ← h.name, ← h.access]

theorem values (h : m.Reads spec) : ∀ type ∈ spec.params, type.isVoid = false := by
  intro type hType
  obtain ⟨text, -, hParse, hVoid⟩ := Pairing.exists_of_mem_right h.params hType
  exact Bool.eq_false_iff.mpr (mt (TypeDescriptor.isVoid_iff_of_parse hParse).mp hVoid)

theorem paramWidth_eq (h : m.Reads spec) :
    spec.proto.paramWidth = (m.params.map TypeDescriptor.registersOf).sum := by
  rw [← h.texts, List.map_map, ProtoDescriptor.paramWidth]
  refine congrArg List.sum (List.map_congr_left fun type hType => ?_)
  exact (TypeDescriptor.registersOf_text (h.values type hType)).symm

theorem name_proto_eq_iff {m' : MethodDescription} {spec' : MethodSpec} (h : m.Reads spec)
    (h' : m'.Reads spec') : (spec.name, spec.proto) = (spec'.name, spec'.proto) ↔
      (m.name, m.params, m.returns) = (m'.name, m'.params, m'.returns) := by
  obtain ⟨name, ⟨returns, params⟩, access⟩ := spec
  obtain ⟨name', ⟨returns', params'⟩, access'⟩ := spec'
  have hTexts := TypeDescriptor.text_injective.list_map.eq_iff (a := params) (b := params')
  have hText := TypeDescriptor.text_injective.eq_iff (a := returns) (b := returns')
  have hReturns := TypeDescriptor.text_of_parse h.returns
  have hReturns' := TypeDescriptor.text_of_parse h'.returns
  simp only [MethodSpec.returns] at hReturns hReturns'
  simp only [Prod.mk.injEq, ProtoDescriptor.mk.injEq, ← h.name, ← h'.name, ← h.texts, ← h'.texts,
    ← hReturns, ← hReturns', MethodSpec.params, hTexts, hText]
  tauto

end Reads

theorem exists_reads_iff : (∃ spec, m.Reads spec) ∧ .isFinal ∉ m.access ↔ m.Proxiable := by
  constructor
  · rintro ⟨⟨spec, h⟩, hFinal⟩
    refine ⟨h.simple, fun text hText => ?_, ⟨_, h.returns⟩, hFinal⟩
    obtain ⟨type, -, hParse, hVoid⟩ := Pairing.exists_of_mem_left h.params hText
    exact ⟨hVoid, type, hParse⟩
  · intro h
    obtain ⟨returns, hReturns⟩ := h.returns
    have hTypes : ∀ text ∈ m.params, ∃ type, m.param 0 text = .ok type := by
      intro text hText
      obtain ⟨hVoid, type, hParse⟩ := h.params text hText
      exact ⟨type, param_eq_ok_iff.mpr ⟨hParse, hVoid⟩⟩
    obtain ⟨params, hParams⟩ := exists_mapM_eq_ok hTypes
    rw [mapM_eq_ok_iff] at hParams
    exact ⟨⟨⟨m.name, ⟨returns, params⟩, m.flags⟩, h.name, rfl,
      hParams.imp fun _ _ => param_eq_ok_iff.mp, hReturns, rfl⟩, h.notFinal⟩

theorem Proxiable.reads_declared (h : m.Proxiable) : m.Reads m.declared := by
  obtain ⟨⟨spec, hSpec⟩, -⟩ := exists_reads_iff.mpr h
  rwa [← hSpec.eq_declared]

end MethodDescription

namespace ClassDescription

variable {d : ClassDescription} {specs : List MethodSpec}

def overridable (d : ClassDescription) : List MethodDescription :=
  d.methods.filter fun m => .isStatic ∉ m.access ∧ .isPrivate ∉ m.access ∧
    m.name ≠ Name.constructor ∧ m.name ≠ Name.classInitializer

theorem filter_isOverridable (d : ClassDescription) :
    d.methods.filter MethodDescription.isOverridable = d.overridable := by
  refine List.filter_congr fun m _ => ?_
  rw [Bool.eq_iff_iff, MethodDescription.isOverridable_iff, decide_eq_true_eq]

theorem overriddenSpec_eq_ok_iff {m : MethodDescription} {spec : MethodSpec} :
    d.overriddenSpec m = .ok spec ↔ m.Reads spec ∧ .isFinal ∉ m.access := by
  rw [overriddenSpec, bind_eq_ok_iff, ← MethodDescription.spec_eq_ok_iff,
    ← MethodDescription.contains_flags_iff, AccessKeyword.flag]
  constructor
  · rintro ⟨spec', hSpec, h⟩
    split at h
    · cases h
    · next hFinal =>
      cases h
      exact ⟨hSpec, hFinal⟩
  · rintro ⟨hSpec, hFinal⟩
    exact ⟨spec, hSpec, if_neg hFinal⟩

theorem specs_eq_ok_iff : d.specs = .ok specs ↔
    List.Forall₂ (fun m spec => m.Reads spec ∧ .isFinal ∉ m.access) d.overridable specs := by
  rw [ClassDescription.specs, filter_isOverridable, mapM_eq_ok_iff]
  simp only [overriddenSpec_eq_ok_iff]

theorem eq_declared_of_specs (h : d.specs = .ok specs) :
    specs = d.overridable.map MethodDescription.declared := by
  rw [← List.forall₂_eq_eq_eq, List.forall₂_map_right_iff]
  exact (specs_eq_ok_iff.mp h).flip.imp fun _ _ hSpec => hSpec.1.eq_declared

theorem exists_specs_iff : (∃ specs, d.specs = .ok specs) ↔ ∀ m ∈ d.overridable, m.Proxiable := by
  constructor
  · rintro ⟨specs, hSpecs⟩ m hm
    obtain ⟨spec, -, hReads, hFinal⟩ :=
      Pairing.exists_of_mem_left (specs_eq_ok_iff.mp hSpecs) hm
    exact MethodDescription.exists_reads_iff.mp ⟨⟨spec, hReads⟩, hFinal⟩
  · intro h
    rw [ClassDescription.specs, filter_isOverridable]
    refine exists_mapM_eq_ok fun m hm => ?_
    obtain ⟨⟨spec, hReads⟩, hFinal⟩ := MethodDescription.exists_reads_iff.mpr (h m hm)
    exact ⟨spec, overriddenSpec_eq_ok_iff.mpr ⟨hReads, hFinal⟩⟩

end ClassDescription

namespace HandlerBinding

variable {binding : HandlerBinding}

theorem exists_handlerClass_iff :
    (∃ name, binding.handlerClass = .ok name) ↔ IsClassText binding.handler := by
  simp only [handlerClass_eq_ok_iff, ← TypeDescriptor.className_of_parse_iff]
  exact exists_comm

end HandlerBinding

namespace ProxyClass

variable {binding : HandlerBinding} {d : ClassDescription} {specs : List MethodSpec}

theorem checkClass_eq_ok_iff {owner : String} {role : ClassRole} {text : String} :
    checkClass owner role text = .ok () ↔ IsClassText text := by
  rw [← TypeDescriptor.className_of_parse_iff, checkClass]
  cases TypeDescriptor.parse text with
  | error cause => simp
  | ok type =>
    dsimp only
    cases hName : type.className? <;> simp [hName]

theorem checkFields_eq_ok_iff : checkFields binding = .ok () ↔
    Name.isSimple binding.field = true ∧
      ∀ field, binding.identity = .methodArray field → Name.isSimple field = true := by
  rw [checkFields]
  cases Name.isSimple binding.field with
  | false => simp
  | true =>
    cases binding.identity with
    | methodArray field => cases hField : Name.isSimple field <;> simp [hField]
    | index => simp
    | name => simp

theorem plan_eq_ok_iff : plan binding d = .ok specs ↔
    IsClassText d.name ∧ IsClassText d.superclass ∧ (∀ text ∈ d.interfaces, IsClassText text) ∧
      (Name.isSimple binding.field = true ∧
        ∀ field, binding.identity = .methodArray field → Name.isSimple field = true) ∧
      d.specs = .ok specs := by
  have hSeq : ∀ {x : Except SynthesisError Unit} {y : Except SynthesisError (List MethodSpec)},
      (x >>= fun _ => y) = .ok specs ↔ x = .ok () ∧ y = .ok specs := by
    intro x y
    rw [bind_eq_ok_iff]
    exact ⟨fun ⟨⟨⟩, hx, hy⟩ => ⟨hx, hy⟩, fun ⟨hx, hy⟩ => ⟨(), hx, hy⟩⟩
  rw [plan, hSeq, hSeq, hSeq, hSeq, checkClass_eq_ok_iff, checkClass_eq_ok_iff, forM_eq_ok_iff,
    checkFields_eq_ok_iff]
  simp only [checkClass_eq_ok_iff]

end ProxyClass

end DexForge
