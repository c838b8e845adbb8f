import DexForge.Pool.Tables
import DexForge.Proofs.Control.Except
import DexForge.Proofs.Pool.Contents
import DexForge.Proofs.Pool.Ranked
import DexForge.Proofs.Text.Utf16

/-! # Ranking keeps what slots denote

A place of the ranked tables denotes the texts that its row resolves to through the ranked tables.
The place of a slot denotes what the slot denotes, so the ranked tables depend only on what the
pools hold.
-/
set_option autoImplicit false

namespace DexForge

instance : Std.TransCmp ProtoPlaces.order :=
  inferInstanceAs (Std.TransCmp (compareLex (compareOn ProtoPlaces.returns)
    (compareOn ProtoPlaces.params)))

instance : Std.TransCmp MemberPlaces.order :=
  inferInstanceAs (Std.TransCmp (compareLex (compareOn MemberPlaces.owner)
    (compareLex (compareOn MemberPlaces.name) (compareOn MemberPlaces.descriptor))))

/-- An entry with places for slots. -/
abbrev Row : TableName → Type
  | .string => String
  | .type => Nat
  | .proto => ProtoPlaces
  | .field => MemberPlaces
  | .method => MemberPlaces

def Row.order : {t : TableName} → Row t → Row t → Ordering
  | .string => Utf16.order
  | .type => compare
  | .proto => ProtoPlaces.order
  | .field => MemberPlaces.order
  | .method => MemberPlaces.order

instance : (t : TableName) → Std.TransCmp (Row.order (t := t))
  | .string => inferInstanceAs (Std.TransCmp Utf16.order)
  | .type => inferInstanceAs (Std.TransCmp (compare : Nat → Nat → Ordering))
  | .proto => inferInstanceAs (Std.TransCmp ProtoPlaces.order)
  | .field => inferInstanceAs (Std.TransCmp MemberPlaces.order)
  | .method => inferInstanceAs (Std.TransCmp MemberPlaces.order)

namespace Ranking

def table (r : Ranking) : (t : TableName) → Ranked (Row t)
  | .string => r.strings
  | .type => r.types
  | .proto => r.protos
  | .field => r.fields
  | .method => r.methods

def place? (r : Ranking) {t : TableName} (slot : Slot t) : Option Nat :=
  (r.table t).rank[slot.position]?

def size (r : Ranking) (t : TableName) : Nat := (r.table t).entries.size

def row? (r : Ranking) (t : TableName) (j : Nat) : Option (Row t) := (r.table t).entries[j]?

def string? (r : Ranking) (j : Nat) : Option String := r.strings.entries[j]?

def type? (r : Ranking) (j : Nat) : Option String := do r.string? (← r.types.entries[j]?)

def protoOf? (r : Ranking) (row : ProtoPlaces) : Option ProtoTexts := do
  return ⟨← r.string? row.shorty, ← r.type? row.returns, ← row.params.mapM r.type?⟩

def proto? (r : Ranking) (j : Nat) : Option ProtoTexts := do r.protoOf? (← r.protos.entries[j]?)

def memberOf? {α : Type} (r : Ranking) (descriptor? : Nat → Option α) (row : MemberPlaces) :
    Option (MemberTexts α) := do
  return ⟨← r.type? row.owner, ← r.string? row.name, ← descriptor? row.descriptor⟩

/-- What a row denotes through the rows that it refers to. -/
def resolve? (r : Ranking) : {t : TableName} → Row t → Option (Contents t)
  | .string, text => some text
  | .type, name => r.string? name
  | .proto, row => r.protoOf? row
  | .field, row => r.memberOf? r.type? row
  | .method, row => r.memberOf? r.proto? row

def contents? (r : Ranking) : (t : TableName) → Nat → Option (Contents t)
  | .string, j => r.string? j
  | .type, j => r.type? j
  | .proto, j => r.proto? j
  | .field, j => do r.memberOf? r.type? (← r.fields.entries[j]?)
  | .method, j => do r.memberOf? r.proto? (← r.methods.entries[j]?)

variable {r : Ranking} {t : TableName}

theorem contents?_eq_some_iff {j : Nat} {x : Contents t} :
    r.contents? t j = some x ↔ ∃ row, r.row? t j = some row ∧ r.resolve? row = some x := by
  cases t with
  | string =>
    constructor
    · intro h
      exact ⟨x, h, rfl⟩
    · rintro ⟨text, hText, ⟨⟩⟩
      exact hText
  | _ => exact Option.bind_eq_some_iff

theorem lt_size_of_contents? {j : Nat} {x : Contents t} (h : r.contents? t j = some x) :
    j < r.size t := by
  obtain ⟨row, hRow, -⟩ := contents?_eq_some_iff.mp h
  exact (Array.getElem?_eq_some_iff.mp hRow).1

theorem protoOf?_eq_some_iff {row : ProtoPlaces} {texts : ProtoTexts} :
    r.protoOf? row = some texts ↔ r.string? row.shorty = some texts.shorty ∧
      r.type? row.returns = some texts.returns ∧
      List.Forall₂ (fun j text => r.type? j = some text) row.params texts.params := by
  simp only [protoOf?, Option.bind_eq_bind, Option.bind_eq_some_iff, Option.pure_def,
    Option.some.injEq, Pairing.mapM_eq_some_iff]
  constructor
  · rintro ⟨shorty, hShorty, returns, hReturns, params, hParams, rfl⟩
    exact ⟨hShorty, hReturns, hParams⟩
  · rintro ⟨hShorty, hReturns, hParams⟩
    exact ⟨_, hShorty, _, hReturns, _, hParams, rfl⟩

theorem memberOf?_eq_some_iff {α : Type} {descriptor? : Nat → Option α} {row : MemberPlaces}
    {texts : MemberTexts α} :
    r.memberOf? descriptor? row = some texts ↔ r.type? row.owner = some texts.owner ∧
      r.string? row.name = some texts.name ∧
      descriptor? row.descriptor = some texts.descriptor := by
  simp only [memberOf?, Option.bind_eq_bind, Option.bind_eq_some_iff, Option.pure_def,
    Option.some.injEq]
  constructor
  · rintro ⟨owner, hOwner, name, hName, descriptor, hDescriptor, rfl⟩
    exact ⟨hOwner, hName, hDescriptor⟩
  · rintro ⟨hOwner, hName, hDescriptor⟩
    exact ⟨_, hOwner, _, hName, _, hDescriptor, rfl⟩

/-- The row is the entry with the places of its slots. -/
def Writes (r : Ranking) : {t : TableName} → Entry t → Row t → Prop
  | .string, text, row => text = row
  | .type, name, row => r.place? name = some row
  | .proto, key, row => r.place? key.shorty = some row.shorty ∧
      r.place? key.returns = some row.returns ∧
      List.Forall₂ (fun slot j => r.place? slot = some j) key.params row.params
  | .field, key, row => r.place? key.owner = some row.owner ∧ r.place? key.name = some row.name ∧
      r.place? key.descriptor = some row.descriptor
  | .method, key, row => r.place? key.owner = some row.owner ∧ r.place? key.name = some row.name ∧
      r.place? key.descriptor = some row.descriptor

/-- Each table of `r` has the entries of `p` in order, with places for slots. -/
def Orders (r : Ranking) (p : Pools) : Prop :=
  ∀ t, ∃ rows, List.Forall₂ r.Writes (p.entries t) rows ∧
    Ranked.Ranks Row.order rows (r.table t)

end Ranking

namespace Tables

theorem place_eq_ok_iff {α : Type} {t : TableName} {table : Ranked α} {slot : Slot t} {j : Nat} :
    place table slot = .ok j ↔ table.rank[slot.position]? = some j := by
  unfold place
  cases table.rank[slot.position]? <;> simp

theorem placeMember_eq_ok_iff {α : Type} {t : TableName} {types : Ranked Nat}
    {strings : Ranked String} {descriptors : Ranked α} {key : MemberKey t} {row : MemberPlaces} :
    placeMember types strings descriptors key = .ok row ↔ place types key.owner = .ok row.owner ∧
      place strings key.name = .ok row.name ∧
      place descriptors key.descriptor = .ok row.descriptor := by
  simp only [placeMember, Except.bind_eq_ok_iff, Except.pure_eq_ok_iff]
  constructor
  · rintro ⟨owner, hOwner, name, hName, descriptor, hDescriptor, rfl⟩
    exact ⟨hOwner, hName, hDescriptor⟩
  · rintro ⟨hOwner, hName, hDescriptor⟩
    exact ⟨_, hOwner, _, hName, _, hDescriptor, rfl⟩

theorem ranks_rankStrings (texts : List String) :
    Ranked.Ranks Utf16.order texts (rankStrings texts) := by
  have hTrans : Std.TransCmp fun a b : String × List UInt16 => compare a.2 b.2 :=
    inferInstanceAs (Std.TransCmp (compareOn Prod.snd))
  exact (Ranked.ranks_ofList (fun a b : String × List UInt16 => compare a.2 b.2) _).map
    (fun _ => rfl) (fun _ _ => rfl)

end Tables

namespace Pools

open Ranking

variable {p : Pools} {r : Ranking}

theorem orders_of_ranking (h : p.ranking = .ok r) : r.Orders p := by
  obtain ⟨names, hNames, h⟩ := Except.bind_eq_ok_iff.mp h
  obtain ⟨protos, hProtos, h⟩ := Except.bind_eq_ok_iff.mp h
  obtain ⟨fields, hFields, h⟩ := Except.bind_eq_ok_iff.mp h
  obtain ⟨methods, hMethods, h⟩ := Except.bind_eq_ok_iff.mp h
  rw [Except.pure_eq_ok_iff] at h
  subst h
  simp only [Except.mapM_eq_ok_iff, Except.bind_eq_ok_iff, Except.pure_eq_ok_iff,
    Tables.place_eq_ok_iff, Tables.placeMember_eq_ok_iff] at hNames hProtos hFields hMethods
  intro t
  cases t with
  | string => exact ⟨_, List.forall₂_same.mpr fun _ _ => rfl, Tables.ranks_rankStrings _⟩
  | type => exact ⟨names, hNames, Ranked.ranks_ofList compare names⟩
  | proto =>
    refine ⟨protos, hProtos.imp ?_, Ranked.ranks_ofList ProtoPlaces.order protos⟩
    rintro key row ⟨shorty, hShorty, returns, hReturns, params, hParams, rfl⟩
    exact ⟨hShorty, hReturns, hParams⟩
  | field => exact ⟨fields, hFields, Ranked.ranks_ofList MemberPlaces.order fields⟩
  | method => exact ⟨methods, hMethods, Ranked.ranks_ofList MemberPlaces.order methods⟩

theorem exists_place {α : Type} {cmp : α → α → Ordering} {rows : List α} {table : Ranked α}
    {t : TableName} {slot : Slot t} (hTable : Ranked.Ranks cmp rows table)
    (hLength : (p.entries t).length = rows.length) (hSlot : slot.position < p.size t) :
    ∃ j, Tables.place table slot = .ok j := by
  have hBound : slot.position < table.rank.size := by
    rwa [hTable.size_rank, ← hLength, length_entries]
  exact ⟨_, Tables.place_eq_ok_iff.mpr (Array.getElem?_eq_getElem hBound)⟩

namespace WellFormed

/-- No slot of well-formed pools dangles. -/
theorem exists_ranking (hp : p.WellFormed) : ∃ r, p.ranking = .ok r := by
  have hString : ∀ {slot : Slot .string} {text : String}, p.stringText? slot = some text →
      ∃ j, Tables.place (Tables.rankStrings p.strings.entries.toList) slot = .ok j :=
    fun hText => exists_place (Tables.ranks_rankStrings _) rfl
      (lt_size_of_contents? (t := .string) hText)
  refine Except.exists_bind_eq_ok (Except.exists_mapM_eq_ok fun name hName =>
    hString (hp.exists_resolve? (t := .type) hName).choose_spec) fun names hNames => ?_
  have hType : ∀ {slot : Slot .type} {text : String}, p.typeText? slot = some text →
      ∃ j, Tables.place (Ranked.ofList compare names) slot = .ok j :=
    fun hText => exists_place (Ranked.ranks_ofList _ _)
      (Except.mapM_eq_ok_iff.mp hNames).length_eq (lt_size_of_contents? (t := .type) hText)
  refine Except.exists_bind_eq_ok (Except.exists_mapM_eq_ok fun key hKey => ?_)
    fun protos hProtos => ?_
  · obtain ⟨texts, hTexts⟩ := hp.exists_resolve? (t := .proto) hKey
    obtain ⟨hShorty, hReturns, hParams⟩ := keyTexts?_eq_some_iff.mp hTexts
    refine Except.exists_bind_eq_ok (hString hShorty) fun shorty _ =>
      Except.exists_bind_eq_ok (hType hReturns) fun returns _ =>
      Except.exists_bind_eq_ok (Except.exists_mapM_eq_ok fun param hParam => ?_)
        fun params _ => ⟨_, rfl⟩
    exact hType (Pairing.exists_of_mem_left hParams hParam).choose_spec.2
  have hProto : ∀ {slot : Slot .proto} {texts : ProtoTexts}, p.protoTexts? slot = some texts →
      ∃ j, Tables.place (Ranked.ofList ProtoPlaces.order protos) slot = .ok j :=
    fun hTexts => exists_place (Ranked.ranks_ofList _ _)
      (Except.mapM_eq_ok_iff.mp hProtos).length_eq (lt_size_of_contents? (t := .proto) hTexts)
  have hMember : ∀ {t : TableName} {α β : Type} {descriptors : Ranked β}
      {descriptor? : Slot t → Option α} {key : MemberKey t} {texts : MemberTexts α},
      (∀ {slot x}, descriptor? slot = some x → ∃ j, Tables.place descriptors slot = .ok j) →
      p.memberTexts? descriptor? key = some texts →
      ∃ row, Tables.placeMember (Ranked.ofList compare names)
        (Tables.rankStrings p.strings.entries.toList) descriptors key = .ok row := by
    intro t α β descriptors descriptor? key texts hPlace hTexts
    obtain ⟨hOwner, hName, hDescriptor⟩ := memberTexts?_eq_some_iff.mp hTexts
    exact Except.exists_bind_eq_ok (hType hOwner) fun owner _ =>
      Except.exists_bind_eq_ok (hString hName) fun name _ =>
      Except.exists_bind_eq_ok (hPlace hDescriptor) fun descriptor _ => ⟨_, rfl⟩
  refine Except.exists_bind_eq_ok (Except.exists_mapM_eq_ok fun key hKey =>
    hMember hType (hp.exists_resolve? (t := .field) hKey).choose_spec) fun fields _ => ?_
  exact Except.exists_bind_eq_ok (Except.exists_mapM_eq_ok fun key hKey =>
    hMember hProto (hp.exists_resolve? (t := .method) hKey).choose_spec) fun methods _ => ⟨_, rfl⟩

end WellFormed

end Pools

namespace Ranking.Orders

variable {p : Pools} {r : Ranking} {t : TableName} (h : r.Orders p)
include h

theorem exists_place {slot : Slot t} (hSlot : slot.position < p.size t) :
    ∃ j, r.place? slot = some j := by
  obtain ⟨rows, hRows, hTable⟩ := h t
  obtain ⟨j, hj⟩ := Pools.exists_place hTable hRows.length_eq hSlot
  exact ⟨j, Tables.place_eq_ok_iff.mp hj⟩

theorem lt_size_of_place {slot : Slot t} {j : Nat} (hj : r.place? slot = some j) :
    j < r.size t := by
  obtain ⟨rows, -, hTable⟩ := h t
  exact hTable.lt_size_of_place hj

theorem size_eq (t : TableName) : r.size t = p.size t := by
  obtain ⟨rows, hRows, hTable⟩ := h t
  rw [size, hTable.size_entries, ← hRows.length_eq, Pools.length_entries]

theorem exists_slot {j : Nat} (hj : j < r.size t) :
    ∃ slot : Slot t, slot.position < p.size t ∧ r.place? slot = some j := by
  obtain ⟨rows, hRows, hTable⟩ := h t
  obtain ⟨i, hi⟩ := hTable.onto (Array.getElem?_eq_getElem hj)
  refine ⟨⟨i⟩, ?_, hi⟩
  rw [← Pools.length_entries, hRows.length_eq, ← hTable.size_rank]
  exact (Array.getElem?_eq_some_iff.mp hi).1

/-- The row at the place of a slot was made from the entry of the slot. -/
theorem row_of_place {slot : Slot t} {j : Nat} (hj : r.place? slot = some j) :
    ∃ entry row, p.entryAt? slot = some entry ∧ r.row? t j = some row ∧ r.Writes entry row := by
  obtain ⟨rows, hRows, hTable⟩ := h t
  obtain ⟨row, hRow⟩ : ∃ row, r.row? t j = some row :=
    ⟨_, Array.getElem?_eq_getElem (hTable.lt_size_of_place hj)⟩
  obtain ⟨entry, hEntry, hWrites⟩ :=
    Pairing.getElem?_right hRows ((hTable.entry hj).symm.trans hRow)
  rw [Pools.getElem?_entries] at hEntry
  exact ⟨entry, row, hEntry, hRow, hWrites⟩

theorem contents_of_row {slot : Slot t} {j : Nat} (hj : r.place? slot = some j)
    (hRow : ∀ {entry row}, r.Writes (t := t) entry row → r.resolve? row = p.resolve? entry) :
    r.contents? t j = p.contents? slot := by
  obtain ⟨entry, row, hEntry, hPlace, hWrites⟩ := h.row_of_place hj
  refine Option.ext fun x => ?_
  simp only [contents?_eq_some_iff, Pools.contents?_eq_some_iff, hEntry, hPlace, Option.some.injEq,
    exists_eq_left', hRow hWrites]

section Layers

/-! A row refers to tables in front of its own, so the tables are taken one after another. -/

theorem string_of_place {slot : Slot .string} {j : Nat} (hj : r.place? slot = some j) :
    r.string? j = p.stringText? slot :=
  h.contents_of_row hj fun hText => congrArg some hText.symm

theorem type_of_place {slot : Slot .type} {j : Nat} (hj : r.place? slot = some j) :
    r.type? j = p.typeText? slot :=
  h.contents_of_row hj h.string_of_place

theorem protoOf?_eq {key : ProtoKey} {row : ProtoPlaces} (hWrites : r.Writes (t := .proto) key row) :
    r.protoOf? row = p.keyTexts? key := by
  obtain ⟨hShorty, hReturns, hParams⟩ := hWrites
  have hTypes : key.params.mapM p.typeText? = row.params.mapM r.type? :=
    Pairing.mapM_congr (hParams.imp fun _ _ hPlace => (h.type_of_place hPlace).symm)
  rw [protoOf?, Pools.keyTexts?, h.string_of_place hShorty, h.type_of_place hReturns, hTypes]

theorem proto_of_place {slot : Slot .proto} {j : Nat} (hj : r.place? slot = some j) :
    r.proto? j = p.protoTexts? slot :=
  h.contents_of_row hj h.protoOf?_eq

theorem memberOf?_eq {α : Type} {descriptor? : Slot t → Option α} {place? : Nat → Option α}
    {key : MemberKey t} {row : MemberPlaces}
    (hPlaces : ∀ {slot j}, r.place? slot = some j → place? j = descriptor? slot)
    (hOwner : r.place? key.owner = some row.owner) (hName : r.place? key.name = some row.name)
    (hDescriptor : r.place? key.descriptor = some row.descriptor) :
    r.memberOf? place? row = p.memberTexts? descriptor? key := by
  rw [memberOf?, Pools.memberTexts?, h.type_of_place hOwner, h.string_of_place hName,
    hPlaces hDescriptor]

theorem resolve?_eq {entry : Entry t} {row : Row t} (hWrites : r.Writes entry row) :
    r.resolve? row = p.resolve? entry := by
  cases t with
  | string => exact congrArg some hWrites.symm
  | type => exact h.string_of_place hWrites
  | proto => exact h.protoOf?_eq hWrites
  | field => exact h.memberOf?_eq h.type_of_place hWrites.1 hWrites.2.1 hWrites.2.2
  | method => exact h.memberOf?_eq h.proto_of_place hWrites.1 hWrites.2.1 hWrites.2.2

theorem contents_of_place {slot : Slot t} {j : Nat} (hj : r.place? slot = some j) :
    r.contents? t j = p.contents? slot :=
  h.contents_of_row hj h.resolve?_eq

end Layers

theorem holds_iff (t : TableName) (x : Contents t) :
    p.Holds ⟨t, x⟩ ↔ ∃ j, r.contents? t j = some x := by
  constructor
  · rintro ⟨slot, hSlot⟩
    obtain ⟨j, hj⟩ := h.exists_place (Pools.lt_size_of_contents? hSlot)
    exact ⟨j, by rw [h.contents_of_place hj, hSlot]⟩
  · rintro ⟨j, hj⟩
    obtain ⟨slot, -, hPlace⟩ := h.exists_slot (lt_size_of_contents? hj)
    exact ⟨slot, by rw [← h.contents_of_place hPlace, hj]⟩

theorem exists_contents (hp : p.WellFormed) {j : Nat} (hj : j < r.size t) :
    ∃ x, r.contents? t j = some x ∧ p.Holds ⟨t, x⟩ := by
  obtain ⟨slot, hSlot, hPlace⟩ := h.exists_slot hj
  obtain ⟨x, hx⟩ := hp.resolved slot hSlot
  exact ⟨x, by rw [h.contents_of_place hPlace, hx], slot, hx⟩

theorem contents_injective {i j : Nat} {x : Contents t} (hi : r.contents? t i = some x)
    (hj : r.contents? t j = some x) : i = j := by
  obtain ⟨slot, -, hPlace⟩ := h.exists_slot (lt_size_of_contents? hi)
  obtain ⟨slot', -, hPlace'⟩ := h.exists_slot (lt_size_of_contents? hj)
  rw [h.contents_of_place hPlace] at hi
  rw [h.contents_of_place hPlace'] at hj
  rw [Pools.contents?_injective hi hj, hPlace', Option.some.injEq] at hPlace
  exact hPlace.symm

end Ranking.Orders

end DexForge
