import DexForge.Proofs.Synthesis.Requests
import DexForge.Proofs.Synthesis.Soundness

/-! # Which descriptions are accepted

A container is made exactly for the descriptions that are sensible by themselves, whose class is none
of its own supertypes, and whose texts, tables and file are not too large.
-/
set_option autoImplicit false

namespace DexForge

open DexForge.Except Pools

theorem Pools.fault?_eq_none_iff {items : List Item} :
    fault? items = none ↔ ∀ text : String, ⟨.string, text⟩ ∈ items → Utf16.length text ≤ 65535 := by
  rw [fault?, List.findSome?_eq_none_iff]
  constructor
  · intro h text hText
    have hItem := h _ hText
    simp only [Item.fault?] at hItem
    split at hItem
    · cases hItem
    · next hShort => exact Nat.not_lt.mp hShort
  · rintro h ⟨t, x⟩ hItem
    cases t with
    | string => exact if_neg (Nat.not_lt.mpr (h x hItem))
    | _ => rfl

theorem Ranking.type_eq_iff {p : Pools} {r : Ranking} (hOrders : r.Orders p)
    (hSize : p.size .type ≤ maxIndexed) {a b : Slot .type} {x y : String}
    (ha : p.contents? a = some x) (hb : p.contents? b = some y) {i j : UInt16}
    (hi : r.narrow.type a = .ok i) (hj : r.narrow.type b = .ok j) : i = j ↔ x = y := by
  constructor
  · rintro rfl
    obtain ⟨m, hm, rfl⟩ := map_eq_ok_iff.mp hi
    obtain ⟨n, hn, hSame⟩ := map_eq_ok_iff.mp hj
    have hPlace : r.place? a = some m := Tables.place_eq_ok_iff.mp hm
    have hPlace' : r.place? b = some n := Tables.place_eq_ok_iff.mp hn
    rw [← hOrders.size_eq] at hSize
    have hNat : ∀ {slot : Slot .type} {k : Nat}, r.place? slot = some k →
        (UInt16.ofNat k).toNat = k := fun hk => UInt16.toNat_ofNat_of_lt (Nat.lt_of_lt_of_le (hOrders.lt_size_of_place hk) hSize)
    have hPlaces := congrArg UInt16.toNat hSame
    rw [hNat hPlace, hNat hPlace'] at hPlaces
    subst hPlaces
    have hx := hOrders.contents_of_place hPlace
    have hy := hOrders.contents_of_place hPlace'
    rw [ha] at hx
    rw [hb] at hy
    exact Option.some.inj (hx.symm.trans hy)
  · rintro rfl
    obtain rfl := contents?_injective ha hb
    exact Except.ok.inj (hi.symm.trans hj)

theorem Call.contents_mem_items {calls : List Call} {t : TableName} {r : Request t}
    (h : ⟨t, r⟩ ∈ calls) : (⟨t, r.contents⟩ : Item) ∈ items calls := by
  have hParts : (⟨t, r.contents⟩ : Item) ∈ r.parts := by
    cases r <;> simp [Request.parts, Request.contents, Request.typeParts, Request.protoParts]
  exact List.mem_flatMap.mpr ⟨_, h, hParts⟩

namespace ProxyClass

variable {binding : HandlerBinding} {d : ClassDescription} {p : Pools} {c : ClassDefinition}

theorem realizes_run (binding : HandlerBinding) (d : ClassDescription) :
    Script.Realizes (fun p c _ => Describes binding d p c) .empty [requests binding d]
      [((build binding d).run .empty).1] ((build binding d).run .empty).2 :=
  (follows_requests wellFormed_empty).run wellFormed_empty

theorem built_of_run (h : (build binding d).run .empty = (.ok c, p)) :
    p.WellFormed ∧ (∀ item, p.Holds item ↔ item ∈ Call.items (calls binding d)) ∧
      Describes binding d p c := by
  have hRun := realizes_run binding d
  rw [h] at hRun
  obtain ⟨_, hOutcome, hDescribes⟩ := (List.forall₂_cons.mp hRun.yields).1.exists_of_ok
  refine ⟨hRun.wellFormed, fun item => ?_, hDescribes⟩
  rw [hRun.holds, or_iff_right (not_holds_empty item), List.flatMap_singleton,
    collects_requests.items hOutcome]

theorem exists_run_iff : (∃ c p, (build binding d).run .empty = (.ok c, p)) ↔
    (Sensible binding d ∧ d.overridable.length ≤ 0x80000000) ∧
      fault? (Call.items (calls binding d)) = none := by
  have hRun := realizes_run binding d
  have hYields := (List.forall₂_cons.mp hRun.yields).1
  rw [← collects_requests.outcome]
  rw [Script.Yields] at hYields
  split at hYields
  · next hOutcome =>
    obtain ⟨c, hResult, -⟩ := hYields
    exact iff_of_true ⟨c, _, Prod.ext hResult rfl⟩ hOutcome
  · next e hOutcome =>
    refine iff_of_false ?_ ?_
    · rintro ⟨c, p, hOk⟩
      rw [hOk] at hYields
      cases hYields
    · rw [hOutcome]
      exact fun hOk => by cases hOk

/-- Each method has an entry of its own, so that their number is bounded with that of the entries. -/
theorem Sensible.length_overridable_le (h : Sensible binding d) :
    d.overridable.length ≤ tally (Call.items (calls binding d)) .method := by
  have hReads : ∀ m ∈ d.overridable, m.Reads m.declared := fun m hm =>
    (h.methods m hm).reads_declared
  have hNodup : (d.overridable.map fun m =>
      (⟨.method, ⟨d.name, m.name, m.declared.proto.texts⟩⟩ : Item)).Nodup := by
    have hDistinct := h.distinctMethods
    rw [List.Nodup, List.pairwise_map] at hDistinct ⊢
    refine hDistinct.imp_of_mem fun {m m'} hm hm' hNe hSame => hNe ?_
    have hTexts : (⟨d.name, m.name, m.declared.proto.texts⟩ : MethodTexts) =
        ⟨d.name, m'.name, m'.declared.proto.texts⟩ := eq_of_heq (Sigma.mk.inj hSame).2
    obtain ⟨-, hName, hProto⟩ := MemberTexts.mk.inj hTexts
    have hParams : m.params = m'.params := by
      rw [← (hReads m hm).texts, ← (hReads m' hm').texts]
      exact congrArg ProtoTexts.params hProto
    have hReturns : m.returns = m'.returns := by
      rw [← TypeDescriptor.text_of_parse (hReads m hm).returns,
        ← TypeDescriptor.text_of_parse (hReads m' hm').returns]
      exact congrArg ProtoTexts.returns hProto
    rw [hName, hParams, hReturns]
  refine List.length_map (fun m : MethodDescription =>
    (⟨.method, ⟨d.name, m.name, m.declared.proto.texts⟩⟩ : Item)) ▸ le_tally hNodup ?_
  intro item hItem
  obtain ⟨m, hm, rfl⟩ := List.mem_map.mp hItem
  have hOwn : (⟨.method, .method d.name m.declared.name m.declared.proto⟩ : Call) ∈
      Delegation.methodCalls ⟨d.name, binding⟩ m.declared := by simp [Delegation.methodCalls]
  have hCall : (⟨.method, .method d.name m.declared.name m.declared.proto⟩ : Call) ∈
      calls binding d := by
    rw [calls, List.mem_append, List.mem_append, List.mem_append]
    exact Or.inl (Or.inl (Or.inr (List.mem_flatMap.mpr ⟨m, hm, hOwn⟩)))
  exact ⟨rfl, Call.contents_mem_items hCall⟩

theorem Describes.type_mem_supertypes_iff (h : Describes binding d p c) {d' : ClassDescription}
    {c' : ClassDefinition} (h' : Describes binding d' p c') {r : Ranking} (hOrders : r.Orders p)
    (hSize : p.size .type ≤ maxIndexed) {l l' : LinkedClass} (hLink : r.narrow.link c = .ok l)
    (hLink' : r.narrow.link c' = .ok l') :
    l'.type ∈ l.supertypes ↔ d'.name = d.superclass ∨ d'.name ∈ d.interfaces := by
  have hLinks := Tables.links_of_link hLink
  have hType := (Tables.links_of_link hLink').type
  obtain ⟨slot, hSlot, hSuperclass⟩ := h.superclass
  have hOption := hLinks.superclass
  rw [hSlot] at hOption
  obtain ⟨hNone, -⟩ | ⟨_, index, ⟨⟩, hIndex, hSuper⟩ := optionMapM_eq_ok_iff.mp hOption
  · cases hNone
  have hTypes : List.Forall₂ (fun text index => l'.type = index ↔ d'.name = text)
      (d.superclass :: d.interfaces) l.supertypes := by
    rw [LinkedClass.supertypes, hIndex]
    refine .cons (Ranking.type_eq_iff hOrders hSize h'.type hSuperclass hType hSuper) ?_
    exact Pairing.comp h.interfaces hLinks.interfaces fun _ _ _ hSlot hIndex =>
      Ranking.type_eq_iff hOrders hSize h'.type hSlot hType hIndex
  rw [← List.mem_cons]
  constructor
  · intro hMem
    obtain ⟨text, hText, hSame⟩ := Pairing.exists_of_mem_right hTypes hMem
    exact hSame.mp rfl ▸ hText
  · intro hMem
    obtain ⟨index, hIndex, hSame⟩ := Pairing.exists_of_mem_left hTypes hMem
    exact hSame.mpr rfl ▸ hIndex

end ProxyClass

namespace HandlerBinding

variable (binding : HandlerBinding) (d : ClassDescription)

def LaysOut (tables : Tables) (l : LinkedClass) : Prop :=
  ∃ c pools, (ProxyClass.build binding d).run .empty = (.ok c, pools) ∧
    pools.finish = .ok tables ∧ tables.link c = .ok l

/-- The description asks for a container that can be made. -/
structure Accepts : Prop extends ProxyClass.Sensible binding d where
  notOwnSuperclass : d.name ≠ d.superclass
  notOwnInterface : d.name ∉ d.interfaces
  texts : ∀ text : String, ⟨.string, text⟩ ∈ Call.items (ProxyClass.calls binding d) →
    Utf16.length text ≤ 65535
  entries : ∀ t, t ≠ .string → tally (Call.items (ProxyClass.calls binding d)) t ≤ 65536
  fileLength : ∀ tables l, binding.LaysOut d tables l → Image.fileLength tables [l] < 0x100000000

variable {binding d}

theorem synthesize_eq_ok_iff {s : Synthesized} : binding.synthesize d = .ok s ↔
    ∃ c pools tables, (ProxyClass.build binding d).run .empty = (.ok c, pools) ∧
      pools.finish = .ok tables ∧ Image.write tables [c] = .ok s.bytes := by
  rw [synthesize]
  constructor
  · intro h
    split at h
    · cases h
    · next c pools hRun =>
      obtain ⟨tables, hTables, h⟩ := bind_eq_ok_iff.mp h
      obtain ⟨bytes, hBytes, rfl⟩ := bind_pure_eq_ok_iff.mp h
      exact ⟨c, pools, tables, hRun, hTables, hBytes⟩
  · rintro ⟨c, pools, tables, hRun, hTables, hBytes⟩
    rw [hRun]
    dsimp only
    rw [hTables, ok_bind, hBytes, ok_bind]
    rfl

/-- Of a class that is built, only its place among its supertypes and the length of the file can be
wrong. -/
theorem exists_write_iff {c : ClassDefinition} {pools : Pools} {tables : Tables}
    (hRun : (ProxyClass.build binding d).run .empty = (.ok c, pools))
    (hTables : pools.finish = .ok tables) : (∃ bytes, Image.write tables [c] = .ok bytes) ↔
      (d.name ≠ d.superclass ∧ d.name ∉ d.interfaces) ∧
        ∃ l, tables.link c = .ok l ∧ Image.fileLength tables [l] < 0x100000000 := by
  obtain ⟨-, -, hDescribes⟩ := ProxyClass.built_of_run hRun
  obtain ⟨r, hOrders, rfl, hSizes⟩ := finish_eq_ok hTables
  obtain ⟨l, hLink⟩ := hDescribes.sound.exists_link hOrders
  have hLinked : [c].mapM r.narrow.link = .ok [l] := mapM_eq_ok_iff.mpr (.cons hLink .nil)
  have hLowers : ∀ l' ∈ [l], Image.Lowers r.narrow l' := by
    rw [List.forall_mem_singleton]
    exact Image.lowers_of_link hOrders hDescribes.sound hLink
  have hSupertypes := hDescribes.type_mem_supertypes_iff hDescribes hOrders
    (checkSizes_eq_ok_iff.mp hSizes).1 hLink hLink
  rw [Image.exists_write_iff hLinked hLowers]
  simp only [ClassOrder.arrange_singleton_eq_ok_iff, hSupertypes, not_or, hLink, Except.ok.injEq]
  constructor
  · rintro ⟨_, ⟨hNames, rfl⟩, hLength⟩
    exact ⟨hNames, l, rfl, hLength⟩
  · rintro ⟨hNames, _, rfl, hLength⟩
    exact ⟨_, ⟨hNames, rfl⟩, hLength⟩

theorem exists_finish_iff {c : ClassDefinition} {pools : Pools}
    (hRun : (ProxyClass.build binding d).run .empty = (.ok c, pools)) :
    (∃ tables, pools.finish = .ok tables) ↔
      ∀ t, t ≠ .string → tally (Call.items (ProxyClass.calls binding d)) t ≤ 65536 := by
  obtain ⟨hp, hHolds, -⟩ := ProxyClass.built_of_run hRun
  simp only [hp.exists_finish_iff, hp.size_eq_tally hHolds]
  constructor
  · rintro ⟨hTypes, hProtos, hFields, hMethods⟩ t ht
    cases t with
    | string => exact absurd rfl ht
    | type => exact hTypes
    | proto => exact hProtos
    | field => exact hFields
    | method => exact hMethods
  · intro h
    exact ⟨h .type nofun, h .proto nofun, h .field nofun, h .method nofun⟩

theorem accepts_of_synthesize {s : Synthesized} (h : binding.synthesize d = .ok s) :
    binding.Accepts d := by
  obtain ⟨c, pools, tables, hRun, hTables, hBytes⟩ := synthesize_eq_ok_iff.mp h
  obtain ⟨⟨hSensible, -⟩, hFault⟩ := ProxyClass.exists_run_iff.mp ⟨c, pools, hRun⟩
  obtain ⟨hNames, l, hLink, hLength⟩ := (exists_write_iff hRun hTables).mp ⟨_, hBytes⟩
  refine ⟨hSensible, hNames.1, hNames.2, fault?_eq_none_iff.mp hFault,
    (exists_finish_iff hRun).mp ⟨tables, hTables⟩, ?_⟩
  -- the class and its tables are the only ones
  rintro tables' l' ⟨c', pools', hRun', hTables', hLink'⟩
  cases hRun.symm.trans hRun'
  cases hTables.symm.trans hTables'
  cases hLink.symm.trans hLink'
  exact hLength

theorem Accepts.exists_synthesize (h : binding.Accepts d) : ∃ s, binding.synthesize d = .ok s := by
  have hCount : d.overridable.length ≤ 0x80000000 :=
    Nat.le_trans h.length_overridable_le (Nat.le_trans (h.entries .method nofun) (by decide))
  obtain ⟨c, pools, hRun⟩ := ProxyClass.exists_run_iff.mpr
    ⟨⟨h.toSensible, hCount⟩, fault?_eq_none_iff.mpr h.texts⟩
  obtain ⟨tables, hTables⟩ := (exists_finish_iff hRun).mpr h.entries
  obtain ⟨r, hOrders, rfl, -⟩ := finish_eq_ok hTables
  obtain ⟨-, -, hDescribes⟩ := ProxyClass.built_of_run hRun
  obtain ⟨l, hLink⟩ := hDescribes.sound.exists_link hOrders
  obtain ⟨bytes, hBytes⟩ := (exists_write_iff hRun hTables).mpr
    ⟨⟨h.notOwnSuperclass, h.notOwnInterface⟩, l, hLink,
      h.fileLength _ l ⟨c, pools, hRun, hTables, hLink⟩⟩
  exact ⟨⟨bytes⟩, synthesize_eq_ok_iff.mpr ⟨c, pools, _, hRun, hTables, hBytes⟩⟩

/-- A container is made for the descriptions that are accepted, and for no others. -/
theorem exists_synthesize_iff (binding : HandlerBinding) (d : ClassDescription) :
    (∃ s, binding.synthesize d = .ok s) ↔ binding.Accepts d :=
  ⟨fun ⟨_, h⟩ => accepts_of_synthesize h, Accepts.exists_synthesize⟩

end HandlerBinding

end DexForge
