import DexForge.Proofs.Pool.Finishing

/-! # Final indices keep order and meaning

Finished tables store places in 16 and 32 bits. As long as the tables fit, no place is cut off: the
places come back from the finished tables, which are strictly ascending and denote the same.
-/
set_option autoImplicit false

namespace DexForge

namespace ProtoRow

def order (a b : ProtoRow) : Ordering :=
  (compare a.returns b.returns).then (compare a.params b.params)

def widen (row : ProtoRow) : ProtoPlaces :=
  ⟨row.shorty.toNat, row.returns.toNat, row.params.map UInt16.toNat⟩

theorem order_widen (a b : ProtoRow) : a.widen.order b.widen = a.order b := by
  have hWiden : ∀ params : List UInt16,
      List.Forall₂ (fun j param => j = UInt16.toNat param) (params.map UInt16.toNat) params :=
    fun _ => List.forall₂_map_left_iff.mpr (List.forall₂_same.mpr fun _ _ => rfl)
  have hParams : compare a.widen.params b.widen.params = compare a.params b.params := by
    refine compareLex_congr (hWiden _) (hWiden _) ?_
    rintro _ _ param param' rfl rfl
    exact (UInt16.compare_eq_toNat_compare_toNat param param').symm
  rw [ProtoPlaces.order, hParams, order, UInt16.compare_eq_toNat_compare_toNat]
  rfl

end ProtoRow

namespace MemberId

def widen (id : MemberId) : MemberPlaces := ⟨id.owner.toNat, id.name.toNat, id.descriptor.toNat⟩

theorem order_widen (a b : MemberId) : a.widen.order b.widen = a.order b := by
  simp only [order, MemberPlaces.order, widen, UInt16.compare_eq_toNat_compare_toNat,
    UInt32.compare_eq_toNat_compare_toNat]

end MemberId

theorem StrictlyAscending.of_map {α β : Type} {cmp : α → α → Ordering} {cmp' : β → β → Ordering}
    {f : α → β} {entries : Array α} (h : StrictlyAscending cmp' (entries.map f))
    (hCmp : ∀ a b, cmp' (f a) (f b) = cmp a b) : StrictlyAscending cmp entries := by
  intro i j a b hLess ha hb
  have hEntry : ∀ {k : Nat} {c : α}, entries[k]? = some c → (entries.map f)[k]? = some (f c) :=
    fun hc => by rw [Array.getElem?_map, hc, Option.map_some]
  rw [← hCmp]
  exact h i j _ _ hLess (hEntry ha) (hEntry hb)

theorem Ranked.map_map {α β : Type} {r : Ranked α} {f : α → β} {g : β → α}
    (h : ∀ a ∈ r.entries.toList, g (f a) = a) : (r.map f).map g = r := by
  have hEntries : (r.entries.map f).map g = r.entries := by
    rw [Array.map_map]
    refine Array.toList_inj.mp ?_
    rw [Array.toList_map]
    exact (List.map_congr_left h).trans (List.map_id _)
  rw [map, map, hEntries]

namespace Tables

structure Ascending (tables : Tables) : Prop where
  strings : StrictlyAscending Utf16.order tables.strings.entries
  types : StrictlyAscending compare tables.types.entries
  protos : StrictlyAscending ProtoRow.order tables.protos.entries
  fields : StrictlyAscending MemberId.order tables.fields.entries
  methods : StrictlyAscending MemberId.order tables.methods.entries

/-- The tables with the places that their indices stand for. -/
def widen (tables : Tables) : Ranking where
  strings := tables.strings
  types := tables.types.map UInt32.toNat
  protos := tables.protos.map ProtoRow.widen
  fields := tables.fields.map MemberId.widen
  methods := tables.methods.map MemberId.widen

def string? (tables : Tables) (i : UInt32) : Option String := tables.strings.entries[i.toNat]?

/-- What an index denotes through the indices that its row holds. -/
def contents? (tables : Tables) (t : TableName) (i : UInt32) : Option (Contents t) :=
  tables.widen.contents? t i.toNat

theorem ascending_of_widen {tables : Tables}
    (h : ∀ t, StrictlyAscending Row.order (tables.widen.table t).entries) : tables.Ascending where
  strings := h .string
  types := (h .type).of_map fun a b => (UInt32.compare_eq_toNat_compare_toNat a b).symm
  protos := (h .proto).of_map ProtoRow.order_widen
  fields := (h .field).of_map MemberId.order_widen
  methods := (h .method).of_map MemberId.order_widen

end Tables

namespace Ranking

/-- The indices of every table reach all of it. -/
def Fits (r : Ranking) : Prop := ∀ t, r.size t ≤ t.capacity

variable {p : Pools} {r : Ranking} {t : TableName}

namespace Fits

variable (h : r.Fits)
include h

theorem lt_capacity {j : Nat} {x : Contents t} (hx : r.contents? t j = some x) : j < t.capacity :=
  Nat.lt_of_lt_of_le (lt_size_of_contents? hx) (h t)

theorem toNat_string {j : Nat} {text : String} (hText : r.string? j = some text) :
    (UInt32.ofNat j).toNat = j :=
  toNat_ofNat (h.lt_capacity (t := .string) hText)

theorem toNat_type {j : Nat} {text : String} (hText : r.type? j = some text) :
    (UInt16.ofNat j).toNat = j :=
  UInt16.toNat_ofNat_of_lt (h.lt_capacity (t := .type) hText)

theorem toNat_proto {j : Nat} {texts : ProtoTexts} (hTexts : r.proto? j = some texts) :
    (UInt16.ofNat j).toNat = j :=
  UInt16.toNat_ofNat_of_lt (h.lt_capacity (t := .proto) hTexts)

theorem widen_narrow_proto {row : ProtoPlaces} {texts : ProtoTexts}
    (hTexts : r.protoOf? row = some texts) : row.narrow.widen = row := by
  obtain ⟨shorty, returns, params⟩ := row
  obtain ⟨hShorty, hReturns, hParams⟩ := protoOf?_eq_some_iff.mp hTexts
  have hTypes : (params.map UInt16.ofNat).map UInt16.toNat = params := by
    rw [List.map_map]
    refine (List.map_congr_left fun j hj => ?_).trans (List.map_id _)
    obtain ⟨text, -, hText⟩ := Pairing.exists_of_mem_left hParams hj
    exact h.toNat_type hText
  rw [ProtoPlaces.narrow, ProtoRow.widen, h.toNat_string hShorty, h.toNat_type hReturns, hTypes]

theorem widen_narrow_member {α : Type} {descriptor? : Nat → Option α} {row : MemberPlaces}
    {texts : MemberTexts α}
    (hNarrow : ∀ {j x}, descriptor? j = some x → (UInt16.ofNat j).toNat = j)
    (hTexts : r.memberOf? descriptor? row = some texts) : row.narrow.widen = row := by
  obtain ⟨owner, name, descriptor⟩ := row
  obtain ⟨hOwner, hName, hDescriptor⟩ := memberOf?_eq_some_iff.mp hTexts
  rw [MemberPlaces.narrow, MemberId.widen, h.toNat_type hOwner, h.toNat_string hName,
    hNarrow hDescriptor]

end Fits

namespace Orders

theorem exists_resolve? (h : r.Orders p) (hp : p.WellFormed) {row : Row t}
    (hRow : row ∈ (r.table t).entries.toList) : ∃ x, r.resolve? row = some x := by
  obtain ⟨x, -, hx⟩ := (h.mem_rows_iff hp).mp hRow
  exact ⟨x, hx⟩

/-- Every row of a table resolves, so all its places are within the tables. -/
theorem widen_narrow (h : r.Orders p) (hp : p.WellFormed) (hFits : r.Fits) :
    r.narrow.widen = r := by
  have hTypes : (r.types.map UInt32.ofNat).map UInt32.toNat = r.types := Ranked.map_map
    fun _ hRow => hFits.toNat_string (h.exists_resolve? (t := .type) hp hRow).choose_spec
  have hProtos : (r.protos.map ProtoPlaces.narrow).map ProtoRow.widen = r.protos := Ranked.map_map
    fun _ hRow => hFits.widen_narrow_proto (h.exists_resolve? (t := .proto) hp hRow).choose_spec
  have hFields : (r.fields.map MemberPlaces.narrow).map MemberId.widen = r.fields :=
    Ranked.map_map fun _ hRow => hFits.widen_narrow_member hFits.toNat_type
      (h.exists_resolve? (t := .field) hp hRow).choose_spec
  have hMethods : (r.methods.map MemberPlaces.narrow).map MemberId.widen = r.methods :=
    Ranked.map_map fun _ hRow => hFits.widen_narrow_member hFits.toNat_proto
      (h.exists_resolve? (t := .method) hp hRow).choose_spec
  rw [narrow, Tables.widen, hTypes, hProtos, hFields, hMethods]

theorem ascending (h : r.Orders p) (hp : p.WellFormed) (hFits : r.Fits) : r.narrow.Ascending := by
  refine Tables.ascending_of_widen fun t => ?_
  rw [h.widen_narrow hp hFits, strictlyAscending_iff]
  exact h.rows_lt hp t

theorem rank_perm (h : r.Orders p) (t : TableName) :
    (r.narrow.rank t).toList.Perm (List.range (p.size t)) := by
  obtain ⟨rows, -, hTable⟩ := h t
  rw [rank_narrow, ← h.size_eq]
  exact hTable.rank_perm

theorem exists_index (h : r.Orders p) (hp : p.WellFormed) (hFits : r.Fits) {slot : Slot t}
    {x : Contents t} (hx : p.contents? slot = some x) :
    ∃ i, r.narrow.index slot = .ok i ∧ r.narrow.contents? t i = some x := by
  obtain ⟨j, hj⟩ := h.exists_place (Pools.lt_size_of_contents? hx)
  have hIndex : (UInt32.ofNat j).toNat = j :=
    toNat_ofNat (Nat.lt_of_lt_of_le (h.lt_size_of_place hj) (hFits t))
  refine ⟨UInt32.ofNat j, (h.index_eq_ok_iff hFits).mpr (by rw [hIndex, hj]), ?_⟩
  rw [Tables.contents?, h.widen_narrow hp hFits, hIndex, h.contents_of_place hj, hx]

end Orders

end Ranking

end DexForge
