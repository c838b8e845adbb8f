import DexForge.Proofs.Pool.History
import DexForge.Proofs.Synthesis.Planning

/-! # All that a proxy class asks for

The entries that the class of a description needs, read off the description. The class is built
exactly when the description passes its checks and no text among these entries is too long.
-/
set_option autoImplicit false

namespace DexForge

open DexForge.Except Pools

theorem Pools.fault?_append_eq_none_iff {items items' : List Item} :
    fault? (items ++ items') = none ↔ fault? items = none ∧ fault? items' = none := by
  rw [fault?_append, Option.or_eq_none_iff]

namespace Recipe

variable {α : Type} {c c' : Recipe Unit} {P P' : Prop} {items items' : List Item}

/-- The recipe ends well exactly when `P` holds and none of the items has a fault, and then it has
collected all of them. -/
structure Collects (c : Recipe Unit) (P : Prop) (items : List Item) : Prop where
  outcome : c.outcome = .ok () ↔ P ∧ fault? items = none
  items : c.outcome = .ok () → c.items = items

theorem Collects.congr (h : Collects c P items) (hP : P ↔ P') (hItems : items = items') :
    Collects c P' items' :=
  ⟨by rw [h.outcome, hP, hItems], fun hOk => by rw [h.items hOk, hItems]⟩

theorem collects_pure : Collects (pure ()) True [] :=
  ⟨⟨fun _ => ⟨trivial, rfl⟩, fun _ => rfl⟩, fun _ => rfl⟩

theorem collects_request {t : TableName} (r : Request t) : Collects (request r) True r.parts := by
  cases hFault : fault? r.parts with
  | none => exact ⟨by simp [request, hFault], fun _ => collected_of_fault?_none hFault⟩
  | some e => exact ⟨by simp [request, hFault], fun hOk => by simp [request, hFault] at hOk⟩

theorem Collects.seq (h : Collects c P items) (h' : Collects c' P' items') :
    Collects (c >>= fun _ => c') (P ∧ P') (items ++ items') := by
  cases hOutcome : c.outcome with
  | ok u =>
    obtain ⟨hP, hItems⟩ := h.outcome.mp hOutcome
    rw [bind_of_ok hOutcome]
    refine ⟨?_, fun hOk => by rw [h.items hOutcome, h'.items hOk]⟩
    rw [fault?_append_eq_none_iff, h'.outcome]
    tauto
  | error e =>
    have hFails : ¬(P ∧ fault? items = none) := by
      rw [← h.outcome, hOutcome]
      exact fun hOk => by cases hOk
    rw [bind_of_error hOutcome]
    refine ⟨?_, fun hOk => by cases hOk⟩
    rw [fault?_append_eq_none_iff]
    constructor
    · intro hOk
      cases hOk
    · rintro ⟨⟨hP, -⟩, hItems, -⟩
      exact absurd ⟨hP, hItems⟩ hFails

/-- A check in front, whose result the rest may depend on. -/
theorem collects_ofExcept {x : Except SynthesisError α} {f : α → Recipe Unit}
    (h : ∀ a, x = .ok a → Collects (f a) P items) :
    Collects (ofExcept x >>= f) ((∃ a, x = .ok a) ∧ P) items := by
  cases x with
  | ok a =>
    rw [bind_of_ok (c := ofExcept (.ok a)) rfl]
    exact (h a rfl).congr (by simp) rfl
  | error e =>
    rw [bind_of_error (c := ofExcept (.error e)) rfl]
    exact ⟨by simp, fun hOk => by cases hOk⟩

theorem collects_forM {f : α → Recipe Unit} {Q : α → Prop} {parts : α → List Item} {xs : List α}
    (h : ∀ x ∈ xs, Collects (f x) (Q x) (parts x)) :
    Collects (xs.forM f) (∀ x ∈ xs, Q x) (xs.flatMap parts) := by
  induction xs with
  | nil => exact collects_pure.congr (by simp) rfl
  | cons x xs ih =>
    rw [List.forall_mem_cons] at h
    exact (h.1.seq (ih h.2)).congr List.forall_mem_cons.symm rfl

end Recipe

def Call.items (calls : List Call) : List Item := calls.flatMap fun c => c.2.parts

theorem Call.items_append (calls calls' : List Call) :
    items (calls ++ calls') = items calls ++ items calls' := List.flatMap_append

namespace MethodBody

/-- What the operations of a body refer to, and the method that it belongs to. -/
def calls (body : MethodBody Request) : List Call :=
  body.code.filterMap Operation.reference? ++ [⟨.method, body.method⟩]

theorem collects_recipe (body : MethodBody Request) :
    body.recipe.Collects True (Call.items body.calls) := by
  have hOps : ∀ op ∈ body.code, op.recipe.Collects True (Call.items op.reference?.toList) := by
    intro op _
    rw [Operation.recipe]
    cases op.reference? with
    | none => exact Recipe.collects_pure
    | some c => exact (Recipe.collects_request c.2).congr Iff.rfl (List.append_nil _).symm
  refine ((Recipe.collects_forM hOps).seq (Recipe.collects_request body.method)).congr (by simp) ?_
  rw [calls, Call.items_append, List.filterMap_eq_flatMap_toList, Call.items, Call.items,
    List.flatMap_assoc]
  simp [Call.items]

end MethodBody

namespace Delegation

variable (ctx : Context) (spec : MethodSpec)

def identityCalls : List Call :=
  match ctx.binding.identity with
  | .methodArray field => [⟨.field, .field ctx.owner field "[Ljava/lang/reflect/Method;"⟩]
  | .index => []
  | .name => [⟨.string, .string spec.signature⟩]

def boxCalls (type : TypeDescriptor) : List Call :=
  type.primitive?.toList.map fun p =>
    ⟨.method, .method p.wrapper.text "valueOf" ⟨.ofClass p.wrapper, [.ofPrimitive p]⟩⟩

def resultCalls (type : TypeDescriptor) : List Call :=
  if type.isVoid then []
  else match type.primitive? with
    | none => [⟨.type, .type type.text⟩]
    | some p => [⟨.type, .type p.wrapper.text⟩,
        ⟨.method, .method p.wrapper.text (p.keyword ++ "Value") ⟨.ofPrimitive p, []⟩⟩]

def methodCalls : List Call :=
  ⟨.field, .field ctx.owner ctx.binding.field ctx.binding.handler⟩ :: identityCalls ctx spec ++
    ⟨.type, .type "[Ljava/lang/Object;"⟩ :: spec.params.flatMap boxCalls ++
    ⟨.method, .method ctx.binding.handler ctx.binding.invokeName ctx.binding.invokeProto⟩ ::
    resultCalls spec.returns ++ [⟨.method, .method ctx.owner spec.name spec.proto⟩]

def constructorCalls (superclass : String) : List Call :=
  [⟨.method, .method superclass "<init>" ⟨.void, []⟩⟩,
   ⟨.field, .field ctx.owner ctx.binding.field ctx.binding.handler⟩,
   ⟨.method, .method ctx.owner "<init>" ⟨.void, [.read ctx.binding.handler]⟩⟩]

variable {ctx spec}

theorem references_loadIdentity (ordinal : Nat) :
    (loadIdentity ctx spec ordinal).filterMap Operation.reference? = identityCalls ctx spec := by
  rw [loadIdentity, identityCalls]
  cases ctx.binding.identity with
  | methodArray field =>
    have hType : MethodIdentity.arrayType.text = "[Ljava/lang/reflect/Method;" := by decide
    simp [Operation.reference?, Context.methodArrayField, hType]
  | index => rfl
  | name => rfl

theorem references_packArgument (position : Nat) (reg : UInt16) (type : TypeDescriptor) :
    (packArgument position reg type).filterMap Operation.reference? = boxCalls type := by
  rw [packArgument, boxCalls]
  cases type.primitive? with
  | some p => rfl
  | none =>
    dsimp only
    split <;> rfl

theorem references_packFrom (params : List TypeDescriptor) (position register : Nat) :
    (packFrom position register params).filterMap Operation.reference? =
      params.flatMap boxCalls := by
  induction params generalizing position register with
  | nil => rfl
  | cons type rest ih =>
    rw [packFrom, List.filterMap_append, references_packArgument, ih, List.flatMap_cons]

theorem references_giveBack (type : TypeDescriptor) :
    (giveBack type).filterMap Operation.reference? = resultCalls type := by
  rw [giveBack, resultCalls]
  split
  · rfl
  · cases type.primitive? with
    | none => rfl
    | some p => cases p <;> rfl

theorem read_handler {handler : ClassName} (h : ctx.binding.handlerClass = .ok handler) :
    TypeDescriptor.read ctx.binding.handler = .ofClass handler := by
  obtain ⟨type, hParse, hName⟩ := HandlerBinding.handlerClass_eq_ok_iff.mp h
  rw [TypeDescriptor.read_of_parse hParse]
  unfold TypeDescriptor.className? at hName
  split at hName
  · cases hName
    rfl
  · cases hName

theorem calls_of_body {ordinal : Nat} {body : MethodBody Request}
    (h : Delegation.body ctx spec ordinal = .ok body) : body.calls = methodCalls ctx spec := by
  obtain ⟨handler, hBodied⟩ := body_eq_ok h
  have hObjects : TypeDescriptor.objectArray.text = "[Ljava/lang/Object;" := by decide
  rw [MethodBody.calls, hBodied.eq, methodCalls,
    ← HandlerBinding.text_of_handlerClass hBodied.handlerClass, packArguments_eq, ← hObjects]
  simp only [List.filterMap_append, List.filterMap_cons, references_loadIdentity,
    references_packFrom, references_giveBack, Operation.reference?, newArguments, callHandler,
    Context.handlerField, List.append_assoc, List.cons_append, List.nil_append]
  rw [HandlerBinding.text_of_handlerClass hBodied.handlerClass]

theorem calls_of_constructorBody {superclass : String} {body : MethodBody Request}
    (h : constructorBody ctx superclass = .ok body) :
    body.calls = constructorCalls ctx superclass := by
  obtain ⟨handler, hHandler, rfl⟩ := constructorBody_eq_ok h
  rw [constructorCalls, read_handler hHandler, ← HandlerBinding.text_of_handlerClass hHandler]
  rfl

theorem exists_body_iff {handler : ClassName} (hHandler : ctx.binding.handlerClass = .ok handler)
    (hValues : ∀ type ∈ spec.params, type.isVoid = false) {ordinal : Nat} :
    (∃ body, Delegation.body ctx spec ordinal = .ok body) ↔
      6 + spec.proto.paramWidth ≤ 65535 ∧ ordinal < 0x80000000 := by
  constructor
  · rintro ⟨body, hBody⟩
    obtain ⟨handler, hBodied⟩ := body_eq_ok hBody
    exact ⟨Nat.le_of_lt_succ hBodied.registers_lt, hBodied.ordinal_lt⟩
  · rintro ⟨hRegisters, hOrdinal⟩
    have hMade := made_body ctx spec ordinal
    cases hBody : Delegation.body ctx spec ordinal with
    | ok body => exact ⟨body, rfl⟩
    | error e =>
      rw [hBody] at hMade
      cases hMade with
      | voidParameter _ hMem hVoid =>
        rw [hValues _ hMem] at hVoid
        cases hVoid
      | overflow hLarge | registers _ hLarge _ | ordinal _ hLarge => omega
      | handler _ _ hError =>
        rw [hHandler] at hError
        cases hError

theorem exists_constructorBody_iff {superclass : String} :
    (∃ body, constructorBody ctx superclass = .ok body) ↔ IsClassText ctx.binding.handler := by
  rw [← HandlerBinding.exists_handlerClass_iff, constructorBody]
  cases ctx.binding.handlerClass <;> simp

end Delegation

theorem forall_mem_zipIdx_iff {α : Type} {Q : α → Prop} {n : Nat} {xs : List α} :
    (∀ x ∈ xs.zipIdx, Q x.1 ∧ x.2 < n) ↔ (∀ a ∈ xs, Q a) ∧ xs.length ≤ n := by
  constructor
  · intro h
    constructor
    · intro a ha
      obtain ⟨i, hi⟩ := List.getElem?_of_mem ha
      exact (h (a, i) (List.mem_zipIdx_iff_getElem?.mpr hi)).1
    · by_contra hLong
      have hLast := List.getElem?_eq_getElem (Nat.not_le.mp hLong)
      exact Nat.lt_irrefl n (h (_, n) (List.mem_zipIdx_iff_getElem?.mpr hLast)).2
  · rintro ⟨hAll, hLength⟩ ⟨a, i⟩ hx
    have hi := List.mem_zipIdx_iff_getElem?.mp hx
    obtain ⟨hLt, -⟩ := List.getElem?_eq_some_iff.mp hi
    exact ⟨hAll a (List.mem_of_getElem? hi), Nat.lt_of_lt_of_le hLt hLength⟩

namespace ProxyClass

open Delegation

variable (binding : HandlerBinding) (d : ClassDescription)

/-- Every entry that the class of a description needs. -/
def calls : List Call :=
  constructorCalls ⟨d.name, binding⟩ d.superclass ++
    d.overridable.flatMap (fun m => methodCalls ⟨d.name, binding⟩ m.declared) ++
    (⟨.type, .type d.name⟩ :: ⟨.type, .type d.superclass⟩ ::
      d.interfaces.map (fun text => ⟨.type, .type text⟩) ++
      (methodArrays ⟨d.name, binding⟩).map (fun r => ⟨.field, r⟩) ++
      [⟨.field, .field d.name binding.field binding.handler⟩]) ++
    d.sourceFile.toList.map fun file => ⟨.string, .string file⟩

/-- The description passes every check that needs no pools. -/
structure Sensible : Prop where
  name : IsClassText d.name
  superclass : IsClassText d.superclass
  interfaces : ∀ text ∈ d.interfaces, IsClassText text
  handler : IsClassText binding.handler
  handlerField : Name.isSimple binding.field = true
  methodArrayField : ∀ field, binding.identity = .methodArray field → Name.isSimple field = true
  methods : ∀ m ∈ d.overridable, m.Proxiable
  distinctMethods : (d.overridable.map fun m => (m.name, m.params, m.returns)).Nodup
  distinctInterfaces : d.interfaces.Nodup
  registers : ∀ m ∈ d.overridable, 6 + (m.params.map TypeDescriptor.registersOf).sum ≤ 65535

instance (identity : MethodIdentity) (P : String → Prop) [DecidablePred P] :
    Decidable (∀ field, identity = .methodArray field → P field) :=
  match identity with
  | .methodArray field => decidable_of_iff (P field) (by simp)
  | .index | .name => .isTrue nofun

instance : Decidable (Sensible binding d) :=
  decidable_of_iff (IsClassText d.name ∧ IsClassText d.superclass ∧
      (∀ text ∈ d.interfaces, IsClassText text) ∧ IsClassText binding.handler ∧
      Name.isSimple binding.field = true ∧
      (∀ field, binding.identity = .methodArray field → Name.isSimple field = true) ∧
      (∀ m ∈ d.overridable, m.Proxiable) ∧
      (d.overridable.map fun m => (m.name, m.params, m.returns)).Nodup ∧ d.interfaces.Nodup ∧
      ∀ m ∈ d.overridable, 6 + (m.params.map TypeDescriptor.registersOf).sum ≤ 65535)
    ⟨fun ⟨a, b, c, d, e, f, g, h, i, j⟩ => ⟨a, b, c, d, e, f, g, h, i, j⟩,
     fun ⟨a, b, c, d, e, f, g, h, i, j⟩ => ⟨a, b, c, d, e, f, g, h, i, j⟩⟩

variable {binding d} {specs : List MethodSpec}

theorem collects_bodies (hSpecs : d.specs = .ok specs) {handler : ClassName}
    (hHandler : binding.handlerClass = .ok handler) :
    Recipe.Collects (specs.zipIdx.forM fun (spec, ordinal) => do
        let body ← Recipe.ofExcept (Delegation.body ⟨d.name, binding⟩ spec ordinal)
        body.recipe)
      ((∀ m ∈ d.overridable, 6 + (m.params.map TypeDescriptor.registersOf).sum ≤ 65535) ∧
        d.overridable.length ≤ 0x80000000)
      (Call.items (d.overridable.flatMap fun m => methodCalls ⟨d.name, binding⟩ m.declared)) := by
  have hReads := ClassDescription.specs_eq_ok_iff.mp hSpecs
  have hEach : ∀ x ∈ specs.zipIdx, Recipe.Collects
      (Recipe.ofExcept (Delegation.body ⟨d.name, binding⟩ x.1 x.2) >>= fun body => body.recipe)
      (6 + x.1.proto.paramWidth ≤ 65535 ∧ x.2 < 0x80000000)
      (Call.items (methodCalls ⟨d.name, binding⟩ x.1)) := by
    rintro ⟨spec, ordinal⟩ hx
    obtain ⟨m, -, hSpec, -⟩ := Pairing.exists_of_mem_right hReads (List.fst_mem_of_mem_zipIdx hx)
    refine (Recipe.collects_ofExcept (P := True) fun body hBody => ?_).congr ?_ rfl
    · exact body.collects_recipe.congr Iff.rfl (by rw [calls_of_body hBody])
    · rw [and_true]
      exact exists_body_iff hHandler hSpec.values
  have hWidth : ∀ m ∈ d.overridable, m.declared.proto.paramWidth =
      (m.params.map TypeDescriptor.registersOf).sum := by
    intro m hm
    exact (ClassDescription.exists_specs_iff.mp ⟨specs, hSpecs⟩ m hm).reads_declared.paramWidth_eq
  -- from here on the methods are those of the declaration, and their ordinals a bound on the count
  rw [ClassDescription.eq_declared_of_specs hSpecs] at hEach ⊢
  refine (Recipe.collects_forM hEach).congr ?_ ?_
  · rw [forall_mem_zipIdx_iff (Q := fun spec : MethodSpec => 6 + spec.proto.paramWidth ≤ 65535),
      List.forall_mem_map, List.length_map]
    exact and_congr_left' (forall₂_congr fun m hm => by rw [hWidth m hm])
  · have hFst := congrArg (List.flatMap fun spec => Call.items (methodCalls ⟨d.name, binding⟩ spec))
      (List.zipIdx_map_fst 0 (d.overridable.map MethodDescription.declared))
    rw [List.flatMap_map, List.flatMap_map] at hFst
    rw [Call.items, List.flatMap_assoc]
    exact hFst

theorem collects_assembly {specs : List MethodSpec} :
    (assembly binding d specs).Collects
      (d.interfaces.Nodup ∧ (specs.map fun spec => (spec.name, spec.proto)).Nodup)
      (Call.items (⟨.type, .type d.name⟩ :: ⟨.type, .type d.superclass⟩ ::
        d.interfaces.map (fun text => ⟨.type, .type text⟩) ++
        (methodArrays ⟨d.name, binding⟩).map (fun r => ⟨.field, r⟩) ++
        [⟨.field, .field d.name binding.field binding.handler⟩])) := by
  have hInterfaces := Recipe.collects_forM fun text (_ : text ∈ d.interfaces) =>
    Recipe.collects_request (.type text)
  have hArrays := Recipe.collects_forM fun r (_ : r ∈ methodArrays ⟨d.name, binding⟩) =>
    Recipe.collects_request r
  refine (Recipe.collects_ofExcept fun _ _ => (Recipe.collects_request (.type d.name)).seq
    ((Recipe.collects_request (.type d.superclass)).seq (hInterfaces.seq (hArrays.seq
      (Recipe.collects_request _))))).congr ?_ ?_
  · simp only [checkDistinct_eq_ok_iff]
    simp
  · simp [Call.items, List.flatMap_map]

theorem nodup_specs_iff (hSpecs : d.specs = .ok specs) {constructor : MethodSpec}
    (hConstructor : constructor.isConstructor = true) :
    ((constructor :: specs).map fun spec => (spec.name, spec.proto)).Nodup ↔
      (d.overridable.map fun m => (m.name, m.params, m.returns)).Nodup := by
  -- a proxied method never has the name of a constructor
  have hNew : (constructor.name, constructor.proto) ∉
      specs.map fun spec => (spec.name, spec.proto) := by
    intro hMem
    obtain ⟨spec, hSpec, hSame⟩ := List.mem_map.mp hMem
    have hOther := ClassDescription.not_isConstructor_of_mem_specs hSpecs hSpec
    rw [MethodSpec.isConstructor, (Prod.mk.inj hSame).1] at hOther
    rw [MethodSpec.isConstructor, hOther] at hConstructor
    cases hConstructor
  have hDeclared : ∀ m ∈ d.overridable, m.Reads m.declared := fun m hm =>
    (ClassDescription.exists_specs_iff.mp ⟨specs, hSpecs⟩ m hm).reads_declared
  rw [List.map_cons, List.nodup_cons, and_iff_right hNew,
    ClassDescription.eq_declared_of_specs hSpecs, List.map_map, List.Nodup, List.Nodup,
    List.pairwise_map, List.pairwise_map]
  refine List.Pairwise.iff_of_mem fun {m m'} hm hm' => ?_
  exact ((hDeclared m hm).name_proto_eq_iff (hDeclared m' hm')).not

theorem collects_requests : (requests binding d).Collects
    (Sensible binding d ∧ d.overridable.length ≤ 0x80000000) (Call.items (calls binding d)) := by
  have hSource := Recipe.collects_forM fun file (_ : file ∈ d.sourceFile.toList) =>
    Recipe.collects_request (.string file)
  refine (Recipe.collects_ofExcept (P := IsClassText binding.handler ∧
    ((∀ m ∈ d.overridable, 6 + (m.params.map TypeDescriptor.registersOf).sum ≤ 65535) ∧
      d.overridable.length ≤ 0x80000000) ∧ d.interfaces.Nodup ∧
      (d.overridable.map fun m => (m.name, m.params, m.returns)).Nodup)
    fun specs hPlan => ?_).congr ?_ rfl
  · have hSpecs := specs_of_plan hPlan
    refine (Recipe.collects_ofExcept fun constructor hConstructor => ?_).congr
      (and_congr_left' exists_constructorBody_iff) rfl
    obtain ⟨handler, hHandler, -⟩ := constructorBody_eq_ok hConstructor
    refine (constructor.collects_recipe.seq ((collects_bodies hSpecs hHandler).seq
      (collects_assembly.seq hSource))).congr ?_ ?_
    · rw [nodup_specs_iff hSpecs (isConstructor_of_constructorBody hConstructor)]
      simp
    · rw [calls_of_constructorBody hConstructor]
      simp [calls, Call.items, List.flatMap_map]
  · simp only [plan_eq_ok_iff, exists_and_left, ClassDescription.exists_specs_iff]
    constructor
    · rintro ⟨⟨hName, hSuperclass, hInterfaces, ⟨hField, hArray⟩, hMethods⟩, hHandler,
        ⟨hRegisters, hCount⟩, hDistinct, hDistinctMethods⟩
      exact ⟨⟨hName, hSuperclass, hInterfaces, hHandler, hField, hArray, hMethods, hDistinctMethods,
        hDistinct, hRegisters⟩, hCount⟩
    · rintro ⟨h, hCount⟩
      exact ⟨⟨h.name, h.superclass, h.interfaces, ⟨h.handlerField, h.methodArrayField⟩, h.methods⟩,
        h.handler, ⟨h.registers, hCount⟩, h.distinctInterfaces, h.distinctMethods⟩

end ProxyClass

end DexForge
