import DexForge.Proofs.Pool.Finishing

/-! # Places are in the order of the texts

A row of a table is compared by the places of what it refers to, and those by the places below them.
Through all the levels this is the order of the texts, so how two entries of a table stand to each
other does not depend on what else is in the tables.
-/
set_option autoImplicit false

namespace DexForge

/-- A shorty is not compared. -/
def ProtoTexts.order (a b : ProtoTexts) : Ordering :=
  (Utf16.order a.returns b.returns).then (List.compareLex Utf16.order a.params b.params)

def MemberTexts.order {α : Type} (order : α → α → Ordering) (a b : MemberTexts α) : Ordering :=
  (Utf16.order a.owner b.owner).then
    ((Utf16.order a.name b.name).then (order a.descriptor b.descriptor))

def Contents.order : {t : TableName} → Contents t → Contents t → Ordering
  | .string => Utf16.order
  | .type => Utf16.order
  | .proto => ProtoTexts.order
  | .field => MemberTexts.order Utf16.order
  | .method => MemberTexts.order ProtoTexts.order

namespace Ranking.Orders

variable {p : Pools} {r : Ranking} {t : TableName} (h : r.Orders p) (hp : p.WellFormed)
include h hp

theorem compare_rows {i j : Nat} {a b : Row t} (ha : r.row? t i = some a)
    (hb : r.row? t j = some b) : compare i j = Row.order a b :=
  (strictlyAscending_iff.mpr (h.rows_lt hp t)).compare_eq ha hb

/-- Places compare as what they denote when rows do. -/
theorem compare_of_rows {order : Contents t → Contents t → Ordering}
    (hRows : ∀ {a b : Row t} {x y}, r.resolve? a = some x → r.resolve? b = some y →
      Row.order a b = order x y)
    {i j : Nat} {x y : Contents t} (hx : r.contents? t i = some x)
    (hy : r.contents? t j = some y) : compare i j = order x y := by
  obtain ⟨row, hRow, hx⟩ := contents?_eq_some_iff.mp hx
  obtain ⟨row', hRow', hy⟩ := contents?_eq_some_iff.mp hy
  rw [h.compare_rows hp hRow hRow', hRows hx hy]

theorem compare_string {i j : Nat} {x y : String} (hx : r.string? i = some x)
    (hy : r.string? j = some y) : compare i j = Utf16.order x y :=
  h.compare_rows hp (t := .string) hx hy

theorem compare_type {i j : Nat} {x y : String} (hx : r.type? i = some x)
    (hy : r.type? j = some y) : compare i j = Utf16.order x y :=
  h.compare_of_rows hp (t := .type) (h.compare_string hp) hx hy

theorem order_protoOf {a b : ProtoPlaces} {x y : ProtoTexts} (hx : r.protoOf? a = some x)
    (hy : r.protoOf? b = some y) : a.order b = x.order y := by
  obtain ⟨-, hReturns, hParams⟩ := protoOf?_eq_some_iff.mp hx
  obtain ⟨-, hReturns', hParams'⟩ := protoOf?_eq_some_iff.mp hy
  have hLists : compare a.params b.params = List.compareLex Utf16.order x.params y.params :=
    compareLex_congr hParams hParams' fun _ _ _ _ => h.compare_type hp
  rw [ProtoPlaces.order, ProtoTexts.order, hLists, h.compare_type hp hReturns hReturns']

theorem compare_proto {i j : Nat} {x y : ProtoTexts} (hx : r.proto? i = some x)
    (hy : r.proto? j = some y) : compare i j = x.order y :=
  h.compare_of_rows hp (t := .proto) (h.order_protoOf hp) hx hy

theorem order_memberOf {α : Type} {descriptor? : Nat → Option α} {order : α → α → Ordering}
    (hDescriptor : ∀ {i j x y}, descriptor? i = some x → descriptor? j = some y →
      compare i j = order x y)
    {a b : MemberPlaces} {x y : MemberTexts α} (hx : r.memberOf? descriptor? a = some x)
    (hy : r.memberOf? descriptor? b = some y) : a.order b = x.order order y := by
  obtain ⟨hOwner, hName, hText⟩ := memberOf?_eq_some_iff.mp hx
  obtain ⟨hOwner', hName', hText'⟩ := memberOf?_eq_some_iff.mp hy
  rw [MemberPlaces.order, MemberTexts.order, h.compare_type hp hOwner hOwner',
    h.compare_string hp hName hName', hDescriptor hText hText']

theorem order_resolve {a b : Row t} {x y : Contents t} (hx : r.resolve? a = some x)
    (hy : r.resolve? b = some y) : Row.order a b = Contents.order x y := by
  cases t with
  | string =>
    obtain rfl := Option.some.inj hx
    obtain rfl := Option.some.inj hy
    rfl
  | type => exact h.compare_string hp hx hy
  | proto => exact h.order_protoOf hp hx hy
  | field => exact h.order_memberOf hp (h.compare_type hp) hx hy
  | method => exact h.order_memberOf hp (h.compare_proto hp) hx hy

/-- Places compare as what they denote. -/
theorem compare_eq {i j : Nat} {x y : Contents t} (hx : r.contents? t i = some x)
    (hy : r.contents? t j = some y) : compare i j = Contents.order x y :=
  h.compare_of_rows hp (h.order_resolve hp) hx hy

end Ranking.Orders

end DexForge
