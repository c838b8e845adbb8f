import DexForge.Proofs.Layout.Room
import DexForge.Proofs.Layout.StoredClasses
import DexForge.Proofs.Proxy.Resolution

/-! # Sound classes

A class is sound when all its slots denote something and its code stays inside its frames. Sound
classes are linked and lowered without a fault.
-/
set_option autoImplicit false

namespace DexForge

/-- Every slot denotes something, and the code stays inside the frame. -/
structure MethodBody.Sound (p : Pools) (body : MethodBody Slot) : Prop where
  method : ∃ x, p.contents? body.method = some x
  ins_le : body.ins ≤ body.registers
  code : ∀ op ∈ body.code, op.Fits body.registers.toNat ∧
    ∃ action : Operation Contents, op.Agrees (fun _ slot x => p.contents? slot = some x) action

/-- Every slot denotes something, no interface is listed twice, and the bodies are sound. -/
structure ClassDefinition.Sound (p : Pools) (c : ClassDefinition) : Prop where
  type : ∃ x, p.contents? c.type = some x
  superclass : ∀ slot ∈ c.superclass, ∃ x, p.contents? slot = some x
  interfaces : ∀ slot ∈ c.interfaces, ∃ x, p.contents? slot = some x
  distinct : c.interfaces.Nodup
  sourceFile : ∀ slot ∈ c.sourceFile, ∃ x, p.contents? slot = some x
  staticFields : ∀ f ∈ c.staticFields, ∃ x, p.contents? f.field = some x
  instanceFields : ∀ f ∈ c.instanceFields, ∃ x, p.contents? f.field = some x
  directMethods : ∀ m ∈ c.directMethods, m.body.Sound p
  virtualMethods : ∀ m ∈ c.virtualMethods, m.body.Sound p

section Linking

variable {p : Pools} {r : Ranking} (hOrders : r.Orders p)
include hOrders

theorem Ranking.exists_place {t : TableName} {slot : Slot t} (h : ∃ x, p.contents? slot = some x) :
    ∃ j, Tables.place (r.table t) slot = .ok j := by
  obtain ⟨x, hx⟩ := h
  obtain ⟨j, hj⟩ := hOrders.exists_place (Pools.lt_size_of_contents? hx)
  exact ⟨j, Tables.place_eq_ok_iff.mpr hj⟩

theorem Ranking.exists_string {slot : Slot .string} (h : ∃ x, p.contents? slot = some x) :
    ∃ i, r.narrow.string slot = .ok i :=
  Except.exists_map_iff.mpr (exists_place hOrders h)

theorem Ranking.exists_type {slot : Slot .type} (h : ∃ x, p.contents? slot = some x) :
    ∃ i, r.narrow.type slot = .ok i :=
  Except.exists_map_iff.mpr (exists_place hOrders h)

theorem Ranking.exists_linkField {f : FieldDefinition} (h : ∃ x, p.contents? f.field = some x) :
    ∃ entry, r.narrow.linkField f = .ok entry :=
  Except.exists_bind_eq_ok (Except.exists_map_iff.mpr (exists_place hOrders h)) fun _ _ => ⟨_, rfl⟩

theorem Ranking.exists_linkMethod {m : MethodDefinition} (h : m.body.Sound p) :
    ∃ l, r.narrow.linkMethod m = .ok l :=
  Except.exists_bind_eq_ok (Except.exists_map_iff.mpr (exists_place hOrders h.method)) fun _ _ =>
    ⟨_, rfl⟩

theorem ClassDefinition.Sound.exists_link {c : ClassDefinition} (h : c.Sound p) :
    ∃ l, r.narrow.link c = .ok l := by
  have hTypes : ∀ slot ∈ c.interfaces, ∃ i, r.narrow.type slot = .ok i := fun slot hSlot =>
    Ranking.exists_type hOrders (h.interfaces slot hSlot)
  refine Except.exists_bind_eq_ok (Ranking.exists_type hOrders h.type) fun _ _ => ?_
  refine Except.exists_bind_eq_ok (Except.exists_optionMapM_eq_ok fun slot hSlot =>
    Ranking.exists_type hOrders (h.superclass slot hSlot)) fun _ _ => ?_
  refine Except.exists_bind_eq_ok (Except.exists_mapM_eq_ok hTypes) fun _ _ => ?_
  refine Except.exists_bind_eq_ok (Except.exists_optionMapM_eq_ok fun slot hSlot =>
    Ranking.exists_string hOrders (h.sourceFile slot hSlot)) fun _ _ => ?_
  refine Except.exists_bind_eq_ok (Except.exists_mapM_eq_ok fun f hf =>
    Ranking.exists_linkField hOrders (h.staticFields f hf)) fun _ _ => ?_
  refine Except.exists_bind_eq_ok (Except.exists_mapM_eq_ok fun f hf =>
    Ranking.exists_linkField hOrders (h.instanceFields f hf)) fun _ _ => ?_
  refine Except.exists_bind_eq_ok (Except.exists_mapM_eq_ok fun m hm =>
    Ranking.exists_linkMethod hOrders (h.directMethods m hm)) fun _ _ => ?_
  refine Except.exists_bind_eq_ok (Except.exists_mapM_eq_ok fun m hm =>
    Ranking.exists_linkMethod hOrders (h.virtualMethods m hm)) fun _ _ => ?_
  exact ⟨_, rfl⟩

theorem MethodBody.Sound.exists_lower {body : MethodBody Slot} (h : body.Sound p) :
    ∃ is, body.code.mapM (Operation.lower r.narrow) = .ok is := by
  refine Except.exists_mapM_eq_ok fun op hOp => ?_
  obtain ⟨hFits, action, hAction⟩ := h.code op hOp
  -- what stands at an index does not matter here
  have hFinds : op.Agrees (Operation.Finds r.narrow fun _ _ => some ()) (action.map fun _ => ()) := by
    refine hAction.map fun t slot x hx => ?_
    obtain ⟨j, hj⟩ := hOrders.exists_place (Pools.lt_size_of_contents? hx)
    exact ⟨_, Ranking.index_of_place hj, rfl⟩
  obtain ⟨i, hLower, -⟩ := Operation.exists_lower hFinds hFits.encodable
  exact ⟨i, hLower⟩

end Linking

namespace Image

theorem body_of_linkMethod {tables : Tables} {m : MethodDefinition} {l : LinkedMethod}
    (h : tables.linkMethod m = .ok l) : l.body = m.body := by
  obtain ⟨index, -, h⟩ := Except.bind_eq_ok_iff.mp h
  rw [Except.pure_eq_ok_iff] at h
  subst h
  rfl

theorem lowers_of_link {p : Pools} {r : Ranking} (hOrders : r.Orders p) {c : ClassDefinition}
    (hSound : c.Sound p) {l : LinkedClass} (h : r.narrow.link c = .ok l) : Lowers r.narrow l := by
  have hLinks := Tables.links_of_link h
  refine List.forall_mem_append.mpr ⟨?_, ?_⟩
  · intro m hm
    obtain ⟨d, hd, hLink⟩ := Pairing.exists_of_mem_right hLinks.directMethods hm
    rw [body_of_linkMethod hLink]
    exact (hSound.directMethods d hd).exists_lower hOrders
  · intro m hm
    obtain ⟨d, hd, hLink⟩ := Pairing.exists_of_mem_right hLinks.virtualMethods hm
    rw [body_of_linkMethod hLink]
    exact (hSound.virtualMethods d hd).exists_lower hOrders

theorem exists_linked {p : Pools} {r : Ranking} (hOrders : r.Orders p)
    {classes : List ClassDefinition} (hSound : ∀ c ∈ classes, c.Sound p) :
    ∃ linked, classes.mapM r.narrow.link = .ok linked ∧ ∀ l ∈ linked, Lowers r.narrow l := by
  obtain ⟨linked, hLinked⟩ : ∃ linked, classes.mapM r.narrow.link = .ok linked :=
    Except.exists_mapM_eq_ok fun c hc => (hSound c hc).exists_link hOrders
  refine ⟨linked, hLinked, ?_⟩
  intro l hl
  obtain ⟨c, hc, hLink⟩ := Pairing.exists_of_mem_right (Except.mapM_eq_ok_iff.mp hLinked) hl
  exact lowers_of_link hOrders (hSound c hc) hLink

end Image

end DexForge
