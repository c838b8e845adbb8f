import DexForge.Proofs.Layout.Verification
import DexForge.Proofs.Synthesis.Faults
import DexForge.Synthesis.Basic

/-! # Synthesized containers load and verify

Every class that a description gives is sound, so the container that is written for a batch of
descriptions loads, and everything that is verified in it holds.
-/
set_option autoImplicit false

namespace DexForge

theorem MethodBody.Denotes.sound {p : Pools} {body : MethodBody Slot} {body' : MethodBody Request}
    (h : body.Denotes p body') (hIns : body'.ins ≤ body'.registers)
    (hFits : ∀ op ∈ body'.code, op.Fits body'.registers.toNat) : body.Sound p where
  method := ⟨_, h.method⟩
  ins_le := by rwa [h.ins, h.registers]
  code op hOp := by
    obtain ⟨op', hOp', hDenotes⟩ := Pairing.exists_of_mem_left h.code hOp
    rw [h.registers]
    exact ⟨hDenotes.fits (hFits op' hOp'), op'.map Request.contents,
      hDenotes.map fun _ _ _ hSlot => hSlot⟩

namespace ProxyClass

variable {binding : HandlerBinding} {d : ClassDescription} {p : Pools} {c : ClassDefinition}

theorem DescribesBody.sound {spec : MethodSpec × Nat} {body : MethodBody Slot}
    (h : DescribesBody binding d spec p body) : body.Sound p := by
  obtain ⟨body', hBody, hDenotes⟩ := h
  obtain ⟨handler, hBodied⟩ := Delegation.body_eq_ok hBody
  refine hDenotes.sound ?_ hBodied.fits
  rw [UInt16.le_iff_toNat_le, hBodied.toNat_ins, hBodied.toNat_registers]
  omega

theorem sound_of_constructorBody {body : MethodBody Slot} {body' : MethodBody Request}
    (hBody : Delegation.constructorBody ⟨d.name, binding⟩ d.superclass = .ok body')
    (h : body.Denotes p body') : body.Sound p := by
  refine h.sound ?_ (Delegation.fits_of_constructorBody hBody)
  obtain ⟨handler, -, rfl⟩ := Delegation.constructorBody_eq_ok hBody
  exact UInt16.le_refl 2

theorem Describes.sound (h : Describes binding d p c) : c.Sound p where
  type := ⟨_, h.type⟩
  superclass := by
    obtain ⟨slot, hSlot, hDenotes⟩ := h.superclass
    rw [hSlot]
    rintro _ ⟨⟩
    exact ⟨_, hDenotes⟩
  interfaces slot hSlot := by
    obtain ⟨text, -, hDenotes⟩ := Pairing.exists_of_mem_right h.interfaces hSlot
    exact ⟨_, hDenotes⟩
  distinct := by
    refine Pairing.pairwise h.interfaces h.distinct ?_
    rintro text - text' - slot _ hSlot hSlot' hNe rfl
    exact hNe (Option.some.inj (hSlot.symm.trans hSlot'))
  sourceFile slot hSlot := by
    obtain ⟨text, -, hDenotes⟩ :=
      Pairing.exists_of_mem_right h.sourceFile (Option.mem_toList.mpr hSlot)
    exact ⟨_, hDenotes⟩
  staticFields f hf := by
    obtain ⟨r, -, hDenotes, -⟩ := Pairing.exists_of_mem_right h.staticFields hf
    exact ⟨_, hDenotes⟩
  instanceFields := by
    obtain ⟨slot, hFields, hDenotes⟩ := h.instanceFields
    rw [hFields, List.forall_mem_singleton]
    exact ⟨_, hDenotes⟩
  directMethods := by
    obtain ⟨constructor, body, hMethods, hBody, hDenotes⟩ := h.directMethods
    rw [hMethods, List.forall_mem_singleton]
    exact sound_of_constructorBody hBody hDenotes
  virtualMethods m hm := by
    obtain ⟨specs, -, hMethods⟩ := h.virtualMethods
    obtain ⟨spec, -, -, hBody⟩ := Pairing.exists_of_mem_right hMethods hm
    exact hBody.sound

end ProxyClass

namespace HandlerBinding

open DexForge.Except Script

variable {binding : HandlerBinding} {ds : List ClassDescription} {d : ClassDescription}

/-- What is made of the classes once each has been built or has failed. -/
def conclude (results : List (Except SynthesisError ClassDefinition)) (pools : Pools) :
    Except SynthesisError Synthesized := do
  let definitions ← results.mapM id
  return ⟨← Image.write (← pools.finish) definitions⟩

theorem conclude_eq_ok_iff {results : List (Except SynthesisError ClassDefinition)} {pools : Pools}
    {s : Synthesized} : conclude results pools = .ok s ↔
      ∃ definitions tables, results.mapM id = .ok definitions ∧ pools.finish = .ok tables ∧
        Image.write tables definitions = .ok s.bytes := by
  constructor
  · intro h
    obtain ⟨definitions, hOk, h⟩ := bind_eq_ok_iff.mp h
    obtain ⟨tables, hTables, h⟩ := bind_eq_ok_iff.mp h
    obtain ⟨bytes, hWrite, rfl⟩ := bind_pure_eq_ok_iff.mp h
    exact ⟨definitions, tables, hOk, hTables, hWrite⟩
  · rintro ⟨definitions, tables, hOk, hTables, hWrite⟩
    rw [conclude, hOk, ok_bind, hTables, ok_bind, hWrite, ok_bind]
    rfl

theorem synthesizeBatch_eq (binding : HandlerBinding) (ds : List ClassDescription) :
    binding.synthesizeBatch ds = conclude (runAll (ds.map (ProxyClass.build binding)) .empty).1
      (runAll (ds.map (ProxyClass.build binding)) .empty).2 := rfl

/-- One description is a batch of one. -/
theorem synthesize_eq (binding : HandlerBinding) (d : ClassDescription) :
    binding.synthesize d = binding.synthesizeBatch [d] := by
  simp only [synthesizeBatch_eq, synthesize, List.map_singleton, runAll]
  obtain ⟨result, pools⟩ := (ProxyClass.build binding d).run .empty
  cases result <;> rfl

/-- The pools and results of a batch that is built on empty pools, in whatever way. -/
abbrev Built (binding : HandlerBinding) (ds : List ClassDescription)
    (results : List (Except SynthesisError ClassDefinition)) (pools : Pools) : Prop :=
  Realizes (fun p c d => ProxyClass.Describes binding d p c) .empty
    (ds.map (ProxyClass.recipe binding)) results pools

theorem built_runAll (binding : HandlerBinding) (ds : List ClassDescription) :
    Built binding ds (runAll (ds.map (ProxyClass.build binding)) .empty).1
      (runAll (ds.map (ProxyClass.build binding)) .empty).2 := by
  refine realizes_runAll (fun _ _ _ _ hExtends h => h.mono hExtends) Pools.wellFormed_empty ?_
  rw [List.forall₂_map_left_iff, List.forall₂_map_right_iff, List.forall₂_same]
  exact fun d _ p' hp' => ProxyClass.follows_build hp'

variable {results : List (Except SynthesisError ClassDefinition)} {pools : Pools}

theorem Built.describes (h : Built binding ds results pools) {definitions : List ClassDefinition}
    (hOk : results.mapM id = .ok definitions) :
    List.Forall₂ (fun d c => ProxyClass.Describes binding d pools c) ds definitions := by
  have hYields := h.yields
  rw [List.forall₂_map_left_iff] at hYields
  refine Pairing.comp hYields (mapM_eq_ok_iff.mp hOk) ?_
  rintro d result c hYields (rfl : result = .ok c)
  obtain ⟨d', hOutcome, hDescribes⟩ := hYields.exists_of_ok
  rwa [ProxyClass.eq_of_outcome hOutcome] at hDescribes

theorem Built.sound (h : Built binding ds results pools) {definitions : List ClassDefinition}
    (hOk : results.mapM id = .ok definitions) : ∀ c ∈ definitions, c.Sound pools := by
  intro c hc
  obtain ⟨d, -, hDescribes⟩ := Pairing.exists_of_mem_right (h.describes hOk) hc
  exact hDescribes.sound

/-- When every class is built, only the whole can be at fault. -/
theorem Built.late (h : Built binding ds results pools) {definitions : List ClassDefinition}
    (hOk : results.mapM id = .ok definitions) :
    Fails SynthesisError.Late (conclude results pools) := by
  rw [conclude, hOk, ok_bind]
  refine Fails.bind (fun e he => h.wellFormed.late_of_finish he) fun tables hTables => ?_
  obtain ⟨r, hOrders, rfl, -⟩ := Pools.finish_eq_ok hTables
  obtain ⟨linked, hLinked, hLowers⟩ := Image.exists_linked hOrders (h.sound hOk)
  exact Fails.bind (fun e he => Image.late_of_write hLinked hLowers he) fun _ _ => fails_ok

theorem Built.proper (h : Built binding ds results pools) :
    Fails SynthesisError.Proper (conclude results pools) := by
  have hResults : Fails SynthesisError.Proper (results.mapM id) := by
    refine fails_mapM fun result hResult e hError => ?_
    obtain ⟨c, hRecipe, hYields⟩ := Pairing.exists_of_mem_right h.yields hResult
    obtain ⟨d, -, rfl⟩ := List.mem_map.mp hRecipe
    rw [show result = .error e from hError] at hYields
    exact ProxyClass.proper_recipe binding d e hYields.outcome_of_error
  intro e hError
  cases hAll : results.mapM id with
  | ok definitions => exact (h.late hAll e hError).proper
  | error e' =>
    rw [conclude, hAll, error_bind] at hError
    cases hError
    exact hResults e hAll

/-- What is read back from a synthesized container: the definition of its one class. -/
theorem exists_stored {s : Synthesized} (h : binding.synthesize d = .ok s) :
    ∃ (p : Pools) (r : Ranking) (c : Container) (definition : ClassDefinition) (cls : ClassDef),
      r.Orders p ∧ Container.load s.bytes = .ok c ∧ c.Shows r ∧ c.classes.toList = [cls] ∧
      ProxyClass.Describes binding d p definition ∧ Image.ClassStored r.narrow definition cls := by
  rw [synthesize_eq, synthesizeBatch_eq] at h
  have hBuilt := built_runAll binding [d]
  obtain ⟨definitions, tables, hOk, hTables, hWrite⟩ := conclude_eq_ok_iff.mp h
  obtain ⟨r, c, order, rfl, hOrders, hLoad, hShows, hPerm, hStored, -⟩ :=
    Image.exists_shows hTables hWrite
  obtain ⟨definition, rest, hDescribes, hRest, rfl⟩ :=
    List.forall₂_cons_left_iff.mp (hBuilt.describes hOk)
  obtain rfl := List.forall₂_nil_left_iff.mp hRest
  obtain rfl := List.perm_singleton.mp hPerm
  obtain ⟨cls, rest, hClass, hRest, hClasses⟩ := List.forall₂_cons_left_iff.mp hStored
  obtain rfl := List.forall₂_nil_left_iff.mp hRest
  exact ⟨_, r, c, definition, cls, hOrders, hLoad, hShows, hClasses, hDescribes, hClass⟩

/-- What becomes of the bytes, or why there are none: the bytes load to a container that is verified,
whose members are stored in ascending order and whose data reaches to the end of the file; a fault
is never that of a slot outside the tables. -/
def LoadsAndVerifies (result : Except SynthesisError Synthesized) : Prop :=
  match result with
  | .ok s => ∃ c, Container.load s.bytes = .ok c ∧ c.verify = .ok () ∧
      (∀ d ∈ c.classes.toList, ∀ data ∈ d.data, data.Ascending) ∧
      c.header.data.offset.toNat + c.header.data.size.toNat = s.bytes.size
  | .error e => e.Proper

theorem Built.loadsAndVerifies (h : Built binding ds results pools) :
    LoadsAndVerifies (conclude results pools) := by
  cases hResult : conclude results pools with
  | error e => exact h.proper e hResult
  | ok s =>
    obtain ⟨definitions, tables, hOk, hTables, hWrite⟩ := conclude_eq_ok_iff.mp hResult
    obtain ⟨r, c, order, rfl, hOrders, hLoad, hShows, hPerm, hStored, hSection⟩ :=
      Image.exists_shows hTables hWrite
    refine ⟨c, hLoad, ?_, ?_, hSection⟩
    · refine hShows.verify_eq_ok hOrders h.wellFormed (fun c hc => ?_) hStored
      exact h.sound hOk c (hPerm.mem_iff.mp hc)
    · intro d hd data hData
      obtain ⟨definition, -, hStored⟩ := Pairing.exists_of_mem_right hStored hd
      obtain ⟨declared, data', hData', -, -, hAscending⟩ := hStored.members
      rw [hData'] at hData
      cases hData
      exact hAscending

/-- Every synthesized container loads and verifies, and no synthesis looks up what is not there. -/
theorem loadsAndVerifies_synthesize (binding : HandlerBinding) :
    (∀ d, LoadsAndVerifies (binding.synthesize d)) ∧
      ∀ ds, LoadsAndVerifies (binding.synthesizeBatch ds) := by
  have hBatch : ∀ ds, LoadsAndVerifies (binding.synthesizeBatch ds) := fun ds =>
    (built_runAll binding ds).loadsAndVerifies
  refine ⟨fun d => ?_, hBatch⟩
  rw [synthesize_eq]
  exact hBatch [d]

end HandlerBinding

end DexForge
