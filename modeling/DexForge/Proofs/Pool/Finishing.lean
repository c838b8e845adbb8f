import DexForge.Proofs.Pool.Ranking

/-! # Finished tables depend on contents alone

Every ranked table is strictly ascending, and its rows are determined by what the pools hold.
-/
set_option autoImplicit false

namespace DexForge

theorem MemberPlaces.eq_of_order {a b : MemberPlaces} (h : order a b = .eq) : a = b := by
  cases a
  cases b
  simp only [order, Ordering.then_eq_eq, Std.LawfulEqOrd.compare_eq_iff_eq] at h
  obtain ⟨rfl, rfl, rfl⟩ := h
  rfl

namespace Ranking

variable {p : Pools} {r : Ranking} {t : TableName}

/-- The shorty is not compared: it follows from the types. -/
theorem descriptor_eq_of_order {a b : ProtoPlaces} {x y : ProtoDescriptor}
    (hCmp : a.order b = .eq) (hx : r.protoOf? a = some x.texts)
    (hy : r.protoOf? b = some y.texts) : x = y := by
  obtain ⟨-, hReturns, hParams⟩ := protoOf?_eq_some_iff.mp hx
  obtain ⟨-, hReturns', hParams'⟩ := protoOf?_eq_some_iff.mp hy
  simp only [ProtoPlaces.order, Ordering.then_eq_eq, Std.LawfulEqOrd.compare_eq_iff_eq] at hCmp
  obtain ⟨hSameReturns, hSameParams⟩ := hCmp
  rw [hSameReturns] at hReturns
  rw [hSameParams, ← Pairing.mapM_eq_some_iff] at hParams
  rw [← Pairing.mapM_eq_some_iff] at hParams'
  exact ProtoDescriptor.eq_of_texts (Option.some.inj (hReturns.symm.trans hReturns'))
    (Option.some.inj (hParams.symm.trans hParams'))

/-- Rows that compare equal denote the same. -/
theorem contents_eq_of_order (hp : p.WellFormed) {a b : Row t} {x y : Contents t}
    (hCmp : Row.order a b = .eq) (hx : r.resolve? a = some x) (hy : r.resolve? b = some y)
    (hHolds : p.Holds ⟨t, x⟩) (hHolds' : p.Holds ⟨t, y⟩) : x = y := by
  have hSame : a = b → x = y := fun hRows => Option.some.inj (hx.symm.trans (hRows ▸ hy))
  cases t with
  | string =>
    have hText : Utf16.order a b = .eq := hCmp
    exact hSame (Std.LawfulEqCmp.eq_of_compare hText)
  | type => exact hSame (Std.LawfulEqOrd.eq_of_compare hCmp)
  | proto =>
    obtain ⟨descriptor, rfl⟩ := hp.valid _ hHolds
    obtain ⟨descriptor', rfl⟩ := hp.valid _ hHolds'
    rw [descriptor_eq_of_order hCmp hx hy]
  | field => exact hSame (MemberPlaces.eq_of_order hCmp)
  | method => exact hSame (MemberPlaces.eq_of_order hCmp)

namespace Orders

theorem rows_lt (h : r.Orders p) (hp : p.WellFormed) (t : TableName) :
    (r.table t).entries.toList.Pairwise fun a b => Row.order a b = .lt := by
  obtain ⟨rows, -, hTable⟩ := h t
  refine pairwise_lt_of_distinct hTable.sorts.ascending ?_
  intro i j a b ha hb hCmp
  rw [Array.getElem?_toList] at ha hb
  obtain ⟨x, hx, hHolds⟩ := h.exists_contents hp (Array.getElem?_eq_some_iff.mp ha).1
  obtain ⟨y, hy, hHolds'⟩ := h.exists_contents hp (Array.getElem?_eq_some_iff.mp hb).1
  obtain ⟨_, hRow, hRowx⟩ := contents?_eq_some_iff.mp hx
  obtain ⟨_, hRow', hRowy⟩ := contents?_eq_some_iff.mp hy
  obtain rfl := Option.some.inj (ha.symm.trans hRow)
  obtain rfl := Option.some.inj (hb.symm.trans hRow')
  rw [contents_eq_of_order hp hCmp hRowx hRowy hHolds hHolds'] at hx
  exact h.contents_injective hx hy

theorem protoOf?_injective (h : r.Orders p) {a b : ProtoPlaces} {texts : ProtoTexts}
    (ha : r.protoOf? a = some texts) (hb : r.protoOf? b = some texts) : a = b := by
  obtain ⟨shorty, returns, params⟩ := a
  obtain ⟨shorty', returns', params'⟩ := b
  obtain ⟨hShorty, hReturns, hParams⟩ := protoOf?_eq_some_iff.mp ha
  obtain ⟨hShorty', hReturns', hParams'⟩ := protoOf?_eq_some_iff.mp hb
  obtain rfl : shorty = shorty' := h.contents_injective (t := .string) hShorty hShorty'
  obtain rfl : returns = returns' := h.contents_injective (t := .type) hReturns hReturns'
  obtain rfl : params = params' :=
    Pairing.eq_of_injective (S := fun j text => r.type? j = some text)
      (fun _ _ _ => h.contents_injective (t := .type)) hParams hParams'
  rfl

theorem memberOf?_injective (h : r.Orders p) {α : Type} {descriptor? : Nat → Option α}
    (hInjective : ∀ {i j x}, descriptor? i = some x → descriptor? j = some x → i = j)
    {a b : MemberPlaces} {texts : MemberTexts α} (ha : r.memberOf? descriptor? a = some texts)
    (hb : r.memberOf? descriptor? b = some texts) : a = b := by
  obtain ⟨owner, name, descriptor⟩ := a
  obtain ⟨owner', name', descriptor'⟩ := b
  obtain ⟨hOwner, hName, hDescriptor⟩ := memberOf?_eq_some_iff.mp ha
  obtain ⟨hOwner', hName', hDescriptor'⟩ := memberOf?_eq_some_iff.mp hb
  obtain rfl : owner = owner' := h.contents_injective (t := .type) hOwner hOwner'
  obtain rfl : name = name' := h.contents_injective (t := .string) hName hName'
  obtain rfl : descriptor = descriptor' := hInjective hDescriptor hDescriptor'
  rfl

theorem resolve?_injective (h : r.Orders p) {a b : Row t} {x : Contents t}
    (ha : r.resolve? a = some x) (hb : r.resolve? b = some x) : a = b := by
  cases t with
  | string => exact (Option.some.inj ha).trans (Option.some.inj hb).symm
  | type => exact h.contents_injective (t := .string) ha hb
  | proto => exact h.protoOf?_injective ha hb
  | field => exact h.memberOf?_injective (h.contents_injective (t := .type)) ha hb
  | method => exact h.memberOf?_injective (h.contents_injective (t := .proto)) ha hb

theorem mem_rows_iff (h : r.Orders p) (hp : p.WellFormed) {row : Row t} :
    row ∈ (r.table t).entries.toList ↔ ∃ x, p.Holds ⟨t, x⟩ ∧ r.resolve? row = some x := by
  constructor
  · intro hMem
    obtain ⟨j, hj⟩ := List.mem_iff_getElem?.mp hMem
    rw [Array.getElem?_toList] at hj
    obtain ⟨x, hx, hHolds⟩ := h.exists_contents hp (Array.getElem?_eq_some_iff.mp hj).1
    obtain ⟨row', hRow, hx⟩ := contents?_eq_some_iff.mp hx
    obtain rfl := Option.some.inj (hj.symm.trans hRow)
    exact ⟨x, hHolds, hx⟩
  · rintro ⟨x, hHolds, hx⟩
    obtain ⟨j, hj⟩ := (h.holds_iff t x).mp hHolds
    obtain ⟨row', hRow, hx'⟩ := contents?_eq_some_iff.mp hj
    rw [h.resolve?_injective hx hx']
    exact Array.mem_toList_iff.mpr (Array.mem_of_getElem? hRow)

end Orders

/-- The tables have equal rows; slots may still differ. -/
def SameEntries (r r' : Ranking) : Prop := ∀ t, (r.table t).entries = (r'.table t).entries

variable {p' : Pools} {r' : Ranking}

section Layers

theorem string?_congr (hStrings : r.strings.entries = r'.strings.entries) :
    r.string? = r'.string? := by
  funext j
  rw [string?, string?, hStrings]

theorem type?_congr (hString : r.string? = r'.string?)
    (hTypes : r.types.entries = r'.types.entries) : r.type? = r'.type? := by
  funext j
  rw [type?, type?, hString, hTypes]

theorem protoOf?_congr (hString : r.string? = r'.string?) (hType : r.type? = r'.type?) :
    r.protoOf? = r'.protoOf? := by
  funext row
  rw [protoOf?, protoOf?, hString, hType]

theorem proto?_congr (hProtoOf : r.protoOf? = r'.protoOf?)
    (hProtos : r.protos.entries = r'.protos.entries) : r.proto? = r'.proto? := by
  funext j
  rw [proto?, proto?, hProtoOf, hProtos]

theorem memberOf?_congr {α : Type} {descriptor? descriptor?' : Nat → Option α}
    (hString : r.string? = r'.string?) (hType : r.type? = r'.type?)
    (hDescriptor : descriptor? = descriptor?') :
    r.memberOf? descriptor? = r'.memberOf? descriptor?' := by
  funext row
  rw [memberOf?, memberOf?, hString, hType, hDescriptor]

theorem SameEntries.resolve? (h : r.SameEntries r') (t : TableName) :
    r.resolve? (t := t) = r'.resolve? := by
  have hString := string?_congr (h .string)
  have hType := type?_congr hString (h .type)
  have hProtoOf := protoOf?_congr hString hType
  cases t with
  | string => rfl
  | type => exact hString
  | proto => exact hProtoOf
  | field => exact memberOf?_congr hString hType hType
  | method => exact memberOf?_congr hString hType (proto?_congr hProtoOf (h .proto))

end Layers

theorem SameEntries.contents? (h : r.SameEntries r') (t : TableName) (j : Nat) :
    r.contents? t j = r'.contents? t j := by
  refine Option.ext fun x => ?_
  rw [contents?_eq_some_iff, contents?_eq_some_iff, row?, row?, h t, h.resolve? t]

/-- A table is strictly ascending, so its rows follow from what they denote. -/
theorem rows_eq (h : r.Orders p) (hp : p.WellFormed) (h' : r'.Orders p') (hp' : p'.WellFormed)
    (hHolds : ∀ item, p.Holds item ↔ p'.Holds item) {t : TableName}
    (hResolve : r.resolve? (t := t) = r'.resolve?) :
    (r.table t).entries = (r'.table t).entries := by
  refine Array.toList_inj.mp (eq_of_pairwise_lt (h.rows_lt hp t) (h'.rows_lt hp' t) ?_)
  intro row
  simp only [h.mem_rows_iff hp, h'.mem_rows_iff hp', hHolds, hResolve]

/-- Pools that hold the same are ranked to the same rows, table by table. -/
theorem sameEntries (h : r.Orders p) (hp : p.WellFormed) (h' : r'.Orders p') (hp' : p'.WellFormed)
    (hHolds : ∀ item, p.Holds item ↔ p'.Holds item) : r.SameEntries r' := by
  have hRows : ∀ t, r.resolve? (t := t) = r'.resolve? →
      (r.table t).entries = (r'.table t).entries := fun _ => rows_eq h hp h' hp' hHolds
  have hString := string?_congr (hRows .string rfl)
  have hType := type?_congr hString (hRows .type hString)
  have hProtoOf := protoOf?_congr hString hType
  have hProto := proto?_congr hProtoOf (hRows .proto hProtoOf)
  intro t
  cases t with
  | string => exact hRows .string rfl
  | type => exact hRows .type hString
  | proto => exact hRows .proto hProtoOf
  | field => exact hRows .field (memberOf?_congr hString hType hType)
  | method => exact hRows .method (memberOf?_congr hString hType hProto)

theorem SameEntries.size_eq (h : r.SameEntries r') (t : TableName) : r.size t = r'.size t := by
  rw [size, size, h t]

def SamePlace (r r' : Ranking) (t : TableName) (slot slot' : Slot t) : Prop :=
  ∃ j, r.place? slot = some j ∧ r'.place? slot' = some j

theorem SameEntries.samePlace (hSame : r.SameEntries r') (h : r.Orders p) (h' : r'.Orders p')
    {t : TableName} {slot slot' : Slot t} {x : Contents t} (hx : p.contents? slot = some x)
    (hx' : p'.contents? slot' = some x) : r.SamePlace r' t slot slot' := by
  obtain ⟨j, hj⟩ := h.exists_place (Pools.lt_size_of_contents? hx)
  obtain ⟨j', hj'⟩ := h'.exists_place (Pools.lt_size_of_contents? hx')
  rw [← h.contents_of_place hj] at hx
  rw [← h'.contents_of_place hj', ← hSame.contents?] at hx'
  obtain rfl := h.contents_injective hx hx'
  exact ⟨j, hj, hj'⟩

end Ranking

/-- Faults that no description has by itself: the tables, the hierarchy or the file are at fault. -/
inductive SynthesisError.Late : SynthesisError → Prop where
  | crowdedTable (t : TableName) (n : Nat) : Late (.encoding (.crowdedTable t n))
  | classTwice (subject : String) : Late (.conflict subject .classTwice)
  | cycle (subject : String) : Late (.conflict subject .cycle)
  | layoutOverflow (fault : OverflowFault) : Late (.layoutOverflow fault)

namespace TableName

def capacity : TableName → Nat
  | .string => 0x100000000
  | _ => maxIndexed

theorem capacity_le (t : TableName) : t.capacity ≤ 0x100000000 := by
  cases t <;> decide

/-- The index for a place, cut off where the place has none. -/
def indexAt (t : TableName) (j : Nat) : UInt32 :=
  match t with
  | .string => UInt32.ofNat j
  | _ => (UInt16.ofNat j).toUInt32

end TableName

def Tables.index (tables : Tables) : {t : TableName} → Slot t → Except SynthesisError UInt32
  | .string, slot => tables.string slot
  | .type, slot => (tables.type slot).map UInt16.toUInt32
  | .proto, slot => (place16 tables.protos slot).map UInt16.toUInt32
  | .field, slot => (tables.field slot).map UInt16.toUInt32
  | .method, slot => (tables.method slot).map UInt16.toUInt32

def Tables.rank (tables : Tables) : TableName → Array Nat
  | .string => tables.strings.rank
  | .type => tables.types.rank
  | .proto => tables.protos.rank
  | .field => tables.fields.rank
  | .method => tables.methods.rank

structure Tables.SameEntries (tables tables' : Tables) : Prop where
  strings : tables.strings.entries = tables'.strings.entries
  types : tables.types.entries = tables'.types.entries
  protos : tables.protos.entries = tables'.protos.entries
  fields : tables.fields.entries = tables'.fields.entries
  methods : tables.methods.entries = tables'.methods.entries

namespace Ranking

variable {p : Pools} {r r' : Ranking} {t : TableName}

theorem SameEntries.narrow (h : r.SameEntries r') : r.narrow.SameEntries r'.narrow where
  strings := h .string
  types := congrArg (Array.map UInt32.ofNat) (h .type)
  protos := congrArg (Array.map ProtoPlaces.narrow) (h .proto)
  fields := congrArg (Array.map MemberPlaces.narrow) (h .field)
  methods := congrArg (Array.map MemberPlaces.narrow) (h .method)

theorem rank_narrow (r : Ranking) (t : TableName) : r.narrow.rank t = (r.table t).rank := by
  cases t <;> rfl

theorem toNat_ofNat {j : Nat} (h : j < t.capacity) : (UInt32.ofNat j).toNat = j :=
  UInt32.toNat_ofNat_of_lt (Nat.lt_of_lt_of_le h t.capacity_le)

theorem toUInt32_ofNat {j : Nat} (h : j < maxIndexed) :
    (UInt16.ofNat j).toUInt32 = UInt32.ofNat j := by
  have hWide : (UInt32.ofNat j).toNat = j := toNat_ofNat (t := .type) h
  apply UInt32.toNat.inj
  rw [UInt16.toNat_toUInt32, hWide]
  exact UInt16.toNat_ofNat_of_lt h

theorem indexAt_eq {j : Nat} (h : j < t.capacity) : t.indexAt j = UInt32.ofNat j := by
  cases t with
  | string => rfl
  | _ => exact toUInt32_ofNat h

theorem index_narrow (r : Ranking) (slot : Slot t) :
    r.narrow.index slot = (Tables.place (r.table t) slot).map t.indexAt := by
  have hMap : ∀ x : Except SynthesisError Nat, (x.map UInt16.ofNat).map UInt16.toUInt32 =
      x.map fun j => (UInt16.ofNat j).toUInt32 := by
    intro x
    cases x <;> rfl
  cases t with
  | string => rfl
  | _ => exact hMap _

theorem index_of_place {slot : Slot t} {j : Nat} (h : r.place? slot = some j) :
    r.narrow.index slot = .ok (t.indexAt j) := by
  rw [index_narrow, Tables.place_eq_ok_iff.mpr h]
  rfl

theorem Orders.index_eq_ok_iff (h : r.Orders p) (hSmall : ∀ t, r.size t ≤ t.capacity)
    {slot : Slot t} {i : UInt32} : r.narrow.index slot = .ok i ↔ r.place? slot = some i.toNat := by
  have hBound : ∀ {j}, r.place? slot = some j → j < t.capacity := fun hj =>
    Nat.lt_of_lt_of_le (h.lt_size_of_place hj) (hSmall t)
  rw [index_narrow, Except.map_eq_ok_iff]
  simp only [Tables.place_eq_ok_iff]
  constructor
  · rintro ⟨j, hj, rfl⟩
    rw [indexAt_eq (hBound hj), toNat_ofNat (hBound hj)]
    exact hj
  · intro hj
    refine ⟨_, hj, ?_⟩
    rw [indexAt_eq (hBound hj), UInt32.ofNat_toNat]

end Ranking

namespace Pools

variable {p p' : Pools} {tables : Tables}

def checkSizes (p : Pools) : Except SynthesisError Unit := do
  p.checkSize .type
  p.checkSize .proto
  p.checkSize .field
  p.checkSize .method

theorem finish_eq (p : Pools) :
    p.finish = (p.checkSizes >>= fun _ => p.ranking >>= fun r => .ok r.narrow) := by
  rw [finish, checkSizes]
  cases p.checkSize .type <;> cases p.checkSize .proto <;> cases p.checkSize .field <;> rfl

theorem checkSize_eq_ok_iff {t : TableName} {u : Unit} :
    p.checkSize t = .ok u ↔ p.size t ≤ maxIndexed := by
  unfold checkSize
  split
  · next h => simpa using h
  · next h => simpa using h

theorem checkSizes_eq_ok_iff {u : Unit} :
    p.checkSizes = .ok u ↔ p.size .type ≤ maxIndexed ∧ p.size .proto ≤ maxIndexed ∧
      p.size .field ≤ maxIndexed ∧ p.size .method ≤ maxIndexed := by
  simp only [checkSizes, Except.bind_eq_ok_iff, checkSize_eq_ok_iff, exists_const]

theorem late_of_checkSizes {e : SynthesisError} (h : p.checkSizes = .error e) : e.Late := by
  have hSize : ∀ t, p.checkSize t = .error e → e.Late := by
    intro t hError
    unfold checkSize at hError
    split at hError
    · cases hError
      exact .crowdedTable t _
    · cases hError
  obtain hError | ⟨_, -, h⟩ := Except.bind_eq_error_iff.mp h
  · exact hSize _ hError
  obtain hError | ⟨_, -, h⟩ := Except.bind_eq_error_iff.mp h
  · exact hSize _ hError
  obtain hError | ⟨_, -, hError⟩ := Except.bind_eq_error_iff.mp h
  · exact hSize _ hError
  · exact hSize _ hError

theorem finish_eq_ok (h : p.finish = .ok tables) :
    ∃ r : Ranking, r.Orders p ∧ tables = r.narrow ∧ p.checkSizes = .ok () := by
  rw [finish_eq] at h
  obtain ⟨_, hSizes, h⟩ := Except.bind_eq_ok_iff.mp h
  obtain ⟨r, hRanking, h⟩ := Except.bind_eq_ok_iff.mp h
  cases h
  exact ⟨r, orders_of_ranking hRanking, rfl, hSizes⟩

/-- The size checks leave only the strings to be bounded. -/
theorem size_le_capacity {r : Ranking} (h : r.Orders p) {u : Unit} (hSizes : p.checkSizes = .ok u)
    (hStrings : r.strings.entries.size ≤ 0x100000000) (t : TableName) : r.size t ≤ t.capacity := by
  obtain ⟨hTypes, hProtos, hFields, hMethods⟩ := checkSizes_eq_ok_iff.mp hSizes
  cases t with
  | string => exact hStrings
  | type => exact h.size_eq .type ▸ hTypes
  | proto => exact h.size_eq .proto ▸ hProtos
  | field => exact h.size_eq .field ▸ hFields
  | method => exact h.size_eq .method ▸ hMethods

theorem checkSizes_congr (h : ∀ t, p.size t = p'.size t) : p.checkSizes = p'.checkSizes := by
  simp only [checkSizes, checkSize, h]

/-- Pools that hold the same finish alike: with the same fault, or with the same entries. -/
theorem finish_congr (hp : p.WellFormed) (hp' : p'.WellFormed)
    (hHolds : ∀ item, p.Holds item ↔ p'.Holds item) :
    Except.Matches (fun tables tables' => ∃ r r' : Ranking, tables = r.narrow ∧
      tables' = r'.narrow ∧ r.Orders p ∧ r'.Orders p' ∧ r.SameEntries r') p.finish p'.finish := by
  obtain ⟨r, hr⟩ := hp.exists_ranking
  obtain ⟨r', hr'⟩ := hp'.exists_ranking
  have h := orders_of_ranking hr
  have h' := orders_of_ranking hr'
  have hSame := Ranking.sameEntries h hp h' hp' hHolds
  have hSizes : p.checkSizes = p'.checkSizes := by
    refine checkSizes_congr fun t => ?_
    rw [← h.size_eq, ← h'.size_eq, hSame.size_eq]
  rw [finish_eq, finish_eq, hSizes, hr, hr']
  cases p'.checkSizes with
  | error e => exact .error e
  | ok u => exact .ok ⟨r, r', rfl, rfl, h, h', hSame⟩

/-- Finishing well-formed pools fails only for a crowded table. -/
theorem WellFormed.late_of_finish (hp : p.WellFormed) {e : SynthesisError}
    (h : p.finish = .error e) : e.Late := by
  obtain ⟨r, hr⟩ := hp.exists_ranking
  rw [finish_eq, hr, Except.bind_eq_error_iff] at h
  obtain hSizes | ⟨_, -, hRest⟩ := h
  · exact late_of_checkSizes hSizes
  · cases hRest

end Pools

end DexForge
