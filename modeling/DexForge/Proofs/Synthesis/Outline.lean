import DexForge.Proofs.Control.Except
import DexForge.Proofs.Proxy.Agreement
import DexForge.Proofs.Proxy.Frame
import DexForge.Synthesis.ProxyClass

/-! # The outline of a proxy class

Which entries the class of a description asks for, in which order and up to which fault, does not
depend on the pools. Neither does the class, up to the slots that its entries get.
-/
set_option autoImplicit false

namespace DexForge

open DexForge.Except

namespace MethodDescription

theorem name_of_spec {m : MethodDescription} {spec : MethodSpec} (h : m.spec = .ok spec) :
    spec.name = m.name := by
  rw [MethodDescription.spec] at h
  split at h
  · cases h
  · obtain ⟨params, -, h⟩ := bind_eq_ok_iff.mp h
    split at h
    · cases h
    · cases h
      rfl

end MethodDescription

namespace ClassDescription

variable {d : ClassDescription} {specs : List MethodSpec}

theorem exists_of_mem_specs (h : d.specs = .ok specs) {spec : MethodSpec} (hSpec : spec ∈ specs) :
    ∃ m ∈ d.methods, m.isOverridable = true ∧ m.spec = .ok spec := by
  obtain ⟨m, hMem, hOverridden⟩ := Pairing.exists_of_mem_right (mapM_eq_ok_iff.mp h) hSpec
  obtain ⟨hMethod, hOverridable⟩ := List.mem_filter.mp hMem
  obtain ⟨spec', hSpec', hOverridden⟩ := bind_eq_ok_iff.mp hOverridden
  split at hOverridden
  · cases hOverridden
  · cases hOverridden
    exact ⟨m, hMethod, hOverridable, hSpec'⟩

theorem not_isConstructor_of_mem_specs (h : d.specs = .ok specs) {spec : MethodSpec}
    (hSpec : spec ∈ specs) : spec.isConstructor = false := by
  obtain ⟨m, -, hOverridable, hName⟩ := exists_of_mem_specs h hSpec
  rw [MethodSpec.isConstructor, MethodDescription.name_of_spec hName]
  simp only [MethodDescription.isOverridable, Bool.not_eq_true', Bool.or_eq_false_iff]
    at hOverridable
  exact hOverridable.1.2

end ClassDescription

namespace Delegation

variable {ctx : Context}

theorem checkDistinct_eq_ok_iff {interfaces : List String} {specs : List MethodSpec} {u : Unit} :
    checkDistinct ctx interfaces specs = .ok u ↔
      interfaces.Nodup ∧ (specs.map fun spec => (spec.name, spec.proto)).Nodup := by
  rw [← firstRepeated?_eq_none_iff, ← firstRepeated?_eq_none_iff, checkDistinct]
  split
  · next hInterface => simp [hInterface]
  · next hInterface =>
    split
    · next hMethod => simp [hMethod]
    · next hMethod => simp [hInterface, hMethod]

theorem spec_of_body {spec : MethodSpec} {ordinal : Nat} {body : MethodBody Request}
    (h : Delegation.body ctx spec ordinal = .ok body) : body.spec = spec := by
  obtain ⟨handler, hBodied⟩ := body_eq_ok h
  rw [hBodied.eq]

theorem isConstructor_of_constructorBody {superclass : String} {body : MethodBody Request}
    (h : constructorBody ctx superclass = .ok body) : body.spec.isConstructor = true := by
  obtain ⟨handler, -, rfl⟩ := constructorBody_eq_ok h
  exact beq_self_eq_true Name.constructor

def methodArrays (ctx : Context) : List (Request .field) :=
  match ctx.binding.identity with
  | .methodArray field => [ctx.methodArrayField field]
  | _ => []

end Delegation

namespace ProxyClass

open Delegation

variable (binding : HandlerBinding) (d : ClassDescription)

/-- The requests behind those of the bodies. -/
def assembly (specs : List MethodSpec) : Recipe Unit := do
  Recipe.ofExcept (checkDistinct ⟨d.name, binding⟩ d.interfaces specs)
  Recipe.request (.type d.name)
  Recipe.request (.type d.superclass)
  d.interfaces.forM fun interface => Recipe.request (.type interface)
  (methodArrays ⟨d.name, binding⟩).forM Recipe.request
  Recipe.request (.field d.name binding.field binding.handler)

def requests : Recipe Unit := do
  let specs ← Recipe.ofExcept (plan binding d)
  let constructor ← Recipe.ofExcept (constructorBody ⟨d.name, binding⟩ d.superclass)
  constructor.recipe
  specs.zipIdx.forM fun (spec, ordinal) => do
    let body ← Recipe.ofExcept (Delegation.body ⟨d.name, binding⟩ spec ordinal)
    body.recipe
  assembly binding d (constructor.spec :: specs)
  d.sourceFile.toList.forM fun file => Recipe.request (.string file)

def recipe : Recipe ClassDescription := do
  requests binding d
  return d

/-- The class of the description in the pools `p`, apart from its methods and its source file. -/
structure DescribesShell (p : Pools) (c : ClassDefinition) : Prop where
  descriptor : c.descriptor = d.name
  type : Script.Denotes p c.type (.type d.name)
  access : c.access = classAccess
  superclass : ∃ slot, c.superclass = some slot ∧ Script.Denotes p slot (.type d.superclass)
  interfaces : List.Forall₂ (fun text slot => Script.Denotes p slot (.type text)) d.interfaces
    c.interfaces
  distinct : d.interfaces.Nodup
  staticFields : List.Forall₂
    (fun r (f : FieldDefinition) => Script.Denotes p f.field r ∧ f.access = methodArrayAccess)
    (methodArrays ⟨d.name, binding⟩) c.staticFields
  instanceFields : ∃ slot, c.instanceFields = [⟨slot, handlerFieldAccess⟩] ∧
    Script.Denotes p slot (.field d.name binding.field binding.handler)

def DescribesBody (spec : MethodSpec × Nat) (p : Pools) (body : MethodBody Slot) : Prop :=
  ∃ body', Delegation.body ⟨d.name, binding⟩ spec.1 spec.2 = .ok body' ∧ body.Denotes p body'

structure Describes (p : Pools) (c : ClassDefinition) : Prop extends
    DescribesShell binding d p c where
  sourceFile : List.Forall₂ (fun text slot => Script.Denotes p slot (.string text))
    d.sourceFile.toList c.sourceFile.toList
  directMethods : ∃ constructor body, c.directMethods = [⟨constructorAccess, body⟩] ∧
    constructorBody ⟨d.name, binding⟩ d.superclass = .ok constructor ∧ body.Denotes p constructor
  virtualMethods : ∃ specs, plan binding d = .ok specs ∧
    List.Forall₂ (fun spec m => m.access = spec.1.access.overriding ∧
      DescribesBody binding d spec p m.body) specs.zipIdx c.virtualMethods

variable {binding d} {p p' : Pools} {c : ClassDefinition}

theorem DescribesShell.mono (h : DescribesShell binding d p c) (hExtends : p.Extends p') :
    DescribesShell binding d p' c := by
  obtain ⟨superclass, hSuperclass, hSuper⟩ := h.superclass
  obtain ⟨handler, hInstance, hHandler⟩ := h.instanceFields
  exact {
    descriptor := h.descriptor
    type := h.type.mono hExtends
    access := h.access
    superclass := ⟨superclass, hSuperclass, hSuper.mono hExtends⟩
    interfaces := h.interfaces.imp fun _ _ hSlot => hSlot.mono hExtends
    distinct := h.distinct
    staticFields := h.staticFields.imp fun _ _ hField => ⟨hField.1.mono hExtends, hField.2⟩
    instanceFields := ⟨handler, hInstance, hHandler.mono hExtends⟩ }

theorem DescribesBody.mono {spec : MethodSpec × Nat} {body : MethodBody Slot}
    (h : DescribesBody binding d spec p body) (hExtends : p.Extends p') :
    DescribesBody binding d spec p' body := by
  obtain ⟨body', hBody, hDenotes⟩ := h
  exact ⟨body', hBody, hDenotes.mono hExtends⟩

theorem Describes.mono (h : Describes binding d p c) (hExtends : p.Extends p') :
    Describes binding d p' c := by
  obtain ⟨constructor, body, hDirect, hBody, hDenotes⟩ := h.directMethods
  obtain ⟨specs, hSpecs, hVirtual⟩ := h.virtualMethods
  exact ⟨h.toDescribesShell.mono hExtends, h.sourceFile.imp fun _ _ hSlot => hSlot.mono hExtends,
    ⟨constructor, body, hDirect, hBody, hDenotes.mono hExtends⟩, specs, hSpecs,
    hVirtual.imp fun _ _ hMethod => ⟨hMethod.1, hMethod.2.mono hExtends⟩⟩

theorem follows_staticFields (hp : p.WellFormed) (ctx : Context) :
    (staticFields ctx).Follows
      (fun p' fields _ => List.Forall₂ (fun r (f : FieldDefinition) =>
        Script.Denotes p' f.field r ∧ f.access = methodArrayAccess) (methodArrays ctx) fields)
      p ((methodArrays ctx).forM Recipe.request) := by
  rw [staticFields, methodArrays]
  cases ctx.binding.identity with
  | methodArray field =>
    refine ((Script.follows_request (ctx.methodArrayField field)).bind hp ?_)
    intro p' slot _ _ _ hSlot
    exact Script.follows_pure (.cons ⟨hSlot, rfl⟩ .nil)
  | index => exact Script.follows_pure .nil
  | name => exact Script.follows_pure .nil

theorem follows_assemble (hp : p.WellFormed) (methods : List (MethodBody Slot)) :
    (assemble ⟨d.name, binding⟩ d.superclass d.interfaces methods).Follows
      (fun p' c _ => DescribesShell binding d p' c ∧ c.sourceFile = none ∧
        c.directMethods = ((methods.filter fun body => body.spec.isConstructor).map fun body =>
          ⟨constructorAccess, body⟩) ∧
        c.virtualMethods = ((methods.filter fun body => !body.spec.isConstructor).map fun body =>
          ⟨body.spec.access.overriding, body⟩))
      p (assembly binding d (methods.map MethodBody.spec)) := by
  refine Script.follows_ofExcept.bind hp ?_
  rintro p₀ _ _ - hp₀ ⟨-, hDistinct⟩
  refine (Script.follows_request (.type d.name)).bind hp₀ ?_
  intro p₁ type _ _ hp₁ hType
  refine (Script.follows_request (.type d.superclass)).bind hp₁ ?_
  intro p₂ superclass _ h₂ hp₂ hSuperclass
  refine (Script.follows_mapM (Q := fun text p' slot => Script.Denotes p' slot (.type text))
    (fun hExtends hSlot => hSlot.mono hExtends) hp₂
    fun text _ p' _ => Script.follows_request (.type text)).bind hp₂ ?_
  intro p₃ interfaces _ h₃ hp₃ hInterfaces
  refine (follows_staticFields hp₃ ⟨d.name, binding⟩).bind hp₃ ?_
  intro p₄ staticFields _ h₄ hp₄ hStatic
  refine (Script.follows_request (.field d.name binding.field binding.handler)).map hp₄ ?_
  intro p₅ handler _ h₅ hp₅ hHandler
  have h₄₅ := h₄.trans h₅
  have h₃₅ := h₃.trans h₄₅
  have hPartition := List.partition_eq_filter_filter
    (p := fun body : MethodBody Slot => body.spec.isConstructor) (l := methods)
  refine ⟨?_, rfl, ?_, ?_⟩
  · exact {
      descriptor := rfl
      type := hType.mono (h₂.trans h₃₅)
      access := rfl
      superclass := ⟨superclass, rfl, hSuperclass.mono h₃₅⟩
      interfaces := hInterfaces.imp fun _ _ hSlot => hSlot.mono h₄₅
      distinct := (checkDistinct_eq_ok_iff.mp hDistinct).1
      staticFields := hStatic.imp fun _ _ hField => ⟨hField.1.mono h₅, hField.2⟩
      instanceFields := ⟨handler, rfl, hHandler⟩ }
  · exact congrArg (List.map _) (congrArg Prod.fst hPartition)
  · exact congrArg (List.map _) (congrArg Prod.snd hPartition)

theorem specs_of_plan {specs : List MethodSpec} (h : plan binding d = .ok specs) :
    d.specs = .ok specs := by
  obtain ⟨-, -, h⟩ := bind_eq_ok_iff.mp h
  obtain ⟨-, -, h⟩ := bind_eq_ok_iff.mp h
  obtain ⟨-, -, h⟩ := bind_eq_ok_iff.mp h
  obtain ⟨-, -, h⟩ := bind_eq_ok_iff.mp h
  exact h

theorem not_isConstructor_of_mem_plan {specs : List MethodSpec} (h : plan binding d = .ok specs)
    {spec : MethodSpec} (hSpec : spec ∈ specs) : spec.isConstructor = false :=
  ClassDescription.not_isConstructor_of_mem_specs (specs_of_plan h) hSpec

theorem DescribesBody.method {spec : MethodSpec × Nat} {body : MethodBody Slot}
    (h : DescribesBody binding d spec p body) :
    Script.Denotes p body.method (.method d.name spec.1.name spec.1.proto) := by
  obtain ⟨body', hBody, hDenotes⟩ := h
  obtain ⟨handler, hBodied⟩ := body_eq_ok hBody
  have hMethod := hDenotes.method
  rwa [hBodied.eq] at hMethod

theorem DescribesBody.spec {spec : MethodSpec × Nat} {body : MethodBody Slot}
    (h : DescribesBody binding d spec p body) : body.spec = spec.1 := by
  obtain ⟨body', hBody, hDenotes⟩ := h
  rw [hDenotes.spec, spec_of_body hBody]

theorem specs_of_describesBody {specs : List MethodSpec} {bodies : List (MethodBody Slot)}
    (h : List.Forall₂ (fun spec body => DescribesBody binding d spec p body) specs.zipIdx bodies) :
    bodies.map MethodBody.spec = specs := by
  have hSpecs : specs.zipIdx.map Prod.fst = bodies.map MethodBody.spec := by
    rw [← List.forall₂_eq_eq_eq, List.forall₂_map_left_iff, List.forall₂_map_right_iff]
    exact h.imp fun _ _ hBody => hBody.spec.symm
  rw [← hSpecs, List.zipIdx_map_fst]

/-- The constructor's is the only body that is taken for a constructor. -/
theorem filter_isConstructor {constructor : MethodBody Slot} {proxied : List (MethodBody Slot)}
    (hHead : constructor.spec.isConstructor = true)
    (hTail : ∀ body ∈ proxied, body.spec.isConstructor = false) :
    (constructor :: proxied).filter (fun body => body.spec.isConstructor) = [constructor] ∧
      (constructor :: proxied).filter (fun body => !body.spec.isConstructor) = proxied := by
  constructor
  · rw [List.filter_cons, if_pos hHead, List.filter_eq_nil_iff.mpr]
    intro body hBody
    simp [hTail body hBody]
  · rw [List.filter_cons_of_neg (by simp [hHead]), List.filter_eq_self.mpr]
    intro body hBody
    simp [hTail body hBody]

theorem follows_requests (hp : p.WellFormed) :
    (build binding d).Follows (fun p' c _ => Describes binding d p' c) p (requests binding d) := by
  refine Script.follows_ofExcept.bind hp ?_
  rintro p₀ specs _ - hp₀ ⟨rfl, hSpecs⟩
  refine Script.follows_ofExcept.bind hp₀ ?_
  rintro p₁ constructor' _ - hp₁ ⟨rfl, hConstructor⟩
  refine (constructor'.follows_intern hp₁).bind hp₁ ?_
  intro p₂ constructor _ _ hp₂ hDenotes
  refine (Script.follows_mapM (Q := DescribesBody binding d)
    (fun hExtends hBody => hBody.mono hExtends) hp₂ ?_).bind hp₂ ?_
  · rintro ⟨spec, ordinal⟩ - p' hp'
    exact Delegation.follows_encode hp' ⟨d.name, binding⟩ spec ordinal
  intro p₃ proxied _ h₃ hp₃ hProxied
  have hNames : (constructor :: proxied).map MethodBody.spec = constructor'.spec :: specs := by
    rw [List.map_cons, hDenotes.spec, specs_of_describesBody hProxied]
  rw [← hNames]
  refine (follows_assemble hp₃ (constructor :: proxied)).bind hp₃ ?_
  rintro p₄ c - h₄ hp₄ ⟨hShell, -, hDirect, hVirtual⟩
  refine (Script.follows_optionMapM (Q := fun text p' slot => Script.Denotes p' slot (.string text))
    hp₄ d.sourceFile fun text p' _ => Script.follows_request (.string text)).map hp₄ ?_
  intro p₅ sourceFile _ h₅ hp₅ hSourceFile
  have h₃₅ := h₄.trans h₅
  have hHead : constructor.spec.isConstructor = true := by
    rw [hDenotes.spec, isConstructor_of_constructorBody hConstructor]
  have hTail : ∀ body ∈ proxied, body.spec.isConstructor = false := by
    intro body hBody
    refine not_isConstructor_of_mem_plan hSpecs ?_
    rw [← specs_of_describesBody hProxied]
    exact List.mem_map_of_mem hBody
  obtain ⟨hConstructors, hOthers⟩ := filter_isConstructor hHead hTail
  rw [hConstructors] at hDirect
  rw [hOthers] at hVirtual
  exact {
    toDescribesShell := { hShell.mono h₅ with }
    sourceFile := hSourceFile
    directMethods := ⟨constructor', constructor, hDirect, hConstructor,
      hDenotes.mono (h₃.trans h₃₅)⟩
    virtualMethods := by
      refine ⟨specs, hSpecs, ?_⟩
      rw [hVirtual, List.forall₂_map_right_iff]
      exact hProxied.imp fun spec body hBody => ⟨by rw [hBody.spec], hBody.mono h₃₅⟩ }

/-- The class of a description is built in the same way in all pools. -/
theorem follows_build (hp : p.WellFormed) :
    (build binding d).Follows (fun p' c d' => Describes binding d' p' c) p (recipe binding d) := by
  rw [← bind_pure (build binding d)]
  exact (follows_requests hp).bind hp fun _ _ _ _ _ hDescribes => Script.follows_pure hDescribes

theorem eq_of_outcome {d' : ClassDescription} (h : (recipe binding d).outcome = .ok d') : d' = d := by
  cases hRequests : (requests binding d).outcome with
  | ok _ =>
    rw [recipe, Recipe.bind_of_ok hRequests] at h
    cases h
    rfl
  | error e =>
    rw [recipe, Recipe.bind_of_error hRequests] at h
    cases h

end ProxyClass

end DexForge
