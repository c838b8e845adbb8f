import DexForge.Proofs.Layout.Congruence
import DexForge.Proofs.Pool.Schedule
import DexForge.Proofs.Synthesis.Soundness

/-! # Batches do not depend on scheduling

The classes of a batch may be built at the same time, request by request in any order. Each order
gives every class other slots, but the slots are gone once the container is written: the bytes, or the
fault, are those of building the classes one after the other.
-/
set_option autoImplicit false

namespace DexForge

open DexForge.Except Script

variable {p p' : Pools} {r r' : Ranking}

theorem Script.Denotes.sameContents {t : TableName} {slot slot' : Slot t} {request : Request t}
    (h : Script.Denotes p slot request) (h' : Script.Denotes p' slot' request) :
    p.SameContents p' t slot slot' := ⟨_, h, h'⟩

namespace ProxyClass

variable {binding : HandlerBinding} {d : ClassDescription} {c c' : ClassDefinition}

theorem DescribesBody.agrees {spec : MethodSpec × Nat} {body body' : MethodBody Slot}
    (h : DescribesBody binding d spec p body) (h' : DescribesBody binding d spec p' body') :
    body.Agrees (p.SameContents p') body' := by
  obtain ⟨wanted, hWanted, hDenotes⟩ := h
  obtain ⟨wanted', hWanted', hDenotes'⟩ := h'
  obtain rfl := Except.ok.inj (hWanted.symm.trans hWanted')
  exact hDenotes.join hDenotes' fun _ _ _ _ => Denotes.sameContents

theorem Describes.agrees (h : Describes binding d p c) (h' : Describes binding d p' c') :
    c.Agrees (p.SameContents p') c' where
  descriptor := h.descriptor.trans h'.descriptor.symm
  type := h.type.sameContents h'.type
  access := h.access.trans h'.access.symm
  superclass := by
    obtain ⟨slot, hSlot, hDenotes⟩ := h.superclass
    obtain ⟨slot', hSlot', hDenotes'⟩ := h'.superclass
    rw [hSlot, hSlot']
    exact .cons (hDenotes.sameContents hDenotes') .nil
  interfaces := Pairing.comp h.interfaces.flip h'.interfaces fun _ _ _ => Denotes.sameContents
  sourceFile := Pairing.comp h.sourceFile.flip h'.sourceFile fun _ _ _ => Denotes.sameContents
  staticFields := Pairing.comp h.staticFields.flip h'.staticFields fun _ _ _ hf hf' =>
    ⟨hf.1.sameContents hf'.1, hf.2.trans hf'.2.symm⟩
  instanceFields := by
    obtain ⟨slot, hFields, hDenotes⟩ := h.instanceFields
    obtain ⟨slot', hFields', hDenotes'⟩ := h'.instanceFields
    rw [hFields, hFields']
    exact .cons ⟨hDenotes.sameContents hDenotes', rfl⟩ .nil
  directMethods := by
    obtain ⟨constructor, body, hMethods, hBody, hDenotes⟩ := h.directMethods
    obtain ⟨constructor', body', hMethods', hBody', hDenotes'⟩ := h'.directMethods
    obtain rfl := Except.ok.inj (hBody.symm.trans hBody')
    rw [hMethods, hMethods']
    exact .cons ⟨rfl, hDenotes.join hDenotes' fun _ _ _ _ => Denotes.sameContents⟩ .nil
  virtualMethods := by
    obtain ⟨specs, hSpecs, hMethods⟩ := h.virtualMethods
    obtain ⟨specs', hSpecs', hMethods'⟩ := h'.virtualMethods
    obtain rfl := Except.ok.inj (hSpecs.symm.trans hSpecs')
    exact Pairing.comp hMethods.flip hMethods' fun _ _ _ hm hm' =>
      ⟨hm.1.trans hm'.1.symm, hm.2.agrees hm'.2⟩

end ProxyClass

namespace HandlerBinding

variable {binding : HandlerBinding} {ds : List ClassDescription} {d : ClassDescription}
  {results results' : List (Except SynthesisError ClassDefinition)}

theorem Built.conclude_eq (h : Built binding ds results p) (h' : Built binding ds results' p') :
    conclude results p = conclude results' p' := by
  refine Except.Matches.eq ((matches_mapM (h.matches_of_realizes h')).bind
    fun classes classes' hClasses => ?_)
  have hHolds : ∀ item, p.Holds item ↔ p'.Holds item := fun item => by
    rw [h.holds, h'.holds]
  refine (Pools.finish_congr h.wellFormed h'.wellFormed hHolds).bind ?_
  rintro _ _ ⟨r, r', rfl, rfl, hOrders, hOrders', hSame⟩
  refine matches_of_eq ?_ fun _ => rfl
  rw [Image.write_congr hSame]
  refine hClasses.imp fun c c' ⟨d, hDescribes, hDescribes'⟩ => ?_
  refine (hDescribes.agrees hDescribes').imp ?_
  rintro t slot slot' ⟨x, hx, hx'⟩
  exact hSame.samePlace hOrders hOrders' hx hx'

/-- The batch when the requests of its classes are made in the order of a schedule; nothing as long
as a class is not finished. -/
def synthesizeUnder (binding : HandlerBinding) (schedule : List Nat) (ds : List ClassDescription) :
    Option (Except SynthesisError Synthesized) :=
  let (scripts, pools) := runSchedule schedule (ds.map (ProxyClass.build binding)) .empty
  (scripts.mapM result?).map fun results => conclude results pools

theorem built_runSchedule {schedule : List Nat}
    (h : (runSchedule schedule (ds.map (ProxyClass.build binding)) .empty).1.mapM result? =
      some results) :
    Built binding ds results
      (runSchedule schedule (ds.map (ProxyClass.build binding)) .empty).2 := by
  refine realizes_runSchedule (fun _ _ _ _ hExtends h => h.mono hExtends) Pools.wellFormed_empty ?_ h
  rw [List.forall₂_map_left_iff, List.forall₂_map_right_iff, List.forall₂_same]
  exact fun d _ => ProxyClass.follows_build Pools.wellFormed_empty

theorem eq_of_synthesizeUnder {schedule : List Nat} {result : Except SynthesisError Synthesized}
    (h : binding.synthesizeUnder schedule ds = some result) :
    result = binding.synthesizeBatch ds := by
  obtain ⟨results, hResults, rfl⟩ := Option.map_eq_some_iff.mp h
  exact (built_runSchedule hResults).conclude_eq (built_runAll binding ds)

/-- However far a schedule has got, the classes can all be finished from there. -/
theorem exists_isSome_synthesizeUnder (binding : HandlerBinding) (schedule : List Nat)
    (ds : List ClassDescription) :
    ∃ later, (binding.synthesizeUnder (schedule ++ later) ds).isSome = true := by
  obtain ⟨later, hLater⟩ := exists_runSchedule_eq
    (runSchedule schedule (ds.map (ProxyClass.build binding)) .empty).1
    (runSchedule schedule (ds.map (ProxyClass.build binding)) .empty).2
  refine ⟨later, ?_⟩
  rw [synthesizeUnder, runSchedule_append, hLater]
  dsimp only
  rw [mapM_result?_map_ofExcept]
  rfl

/-- Why the class of a description cannot be built, when it is built alone. -/
def fault? (binding : HandlerBinding) (d : ClassDescription) : Option SynthesisError :=
  error? ((ProxyClass.build binding d).run .empty).1

theorem Built.error?_eq (h : Built binding ds results p) :
    error? (results.mapM id) = ds.findSome? binding.fault? := by
  have hYields := h.yields
  rw [List.forall₂_map_left_iff] at hYields
  rw [error?_mapM]
  refine (Pairing.findSome?_congr (hYields.imp fun d result hResult => ?_)).symm
  have hAlone : Built binding [d] [((ProxyClass.build binding d).run .empty).1]
      ((ProxyClass.build binding d).run .empty).2 :=
    (ProxyClass.follows_build Pools.wellFormed_empty).run Pools.wellFormed_empty
  exact ((List.forall₂_cons.mp hAlone.yields).1.matches_of_yields hResult).error?_eq

theorem Built.conclude_eq_error (h : Built binding ds results p) {e : SynthesisError}
    (hFault : ds.findSome? binding.fault? = some e) : conclude results p = .error e := by
  rw [← h.error?_eq, error?_eq_some_iff] at hFault
  rw [conclude, hFault, error_bind]

theorem Built.late_of_findSome? (h : Built binding ds results p)
    (hFault : ds.findSome? binding.fault? = none) :
    Fails SynthesisError.Late (conclude results p) := by
  rw [← h.error?_eq] at hFault
  cases hAll : results.mapM id with
  | ok definitions => exact h.late hAll
  | error e =>
    rw [hAll] at hFault
    cases hFault

end HandlerBinding

end DexForge
