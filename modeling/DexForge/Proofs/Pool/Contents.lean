import DexForge.Pool.View
import DexForge.Proofs.Control.Pairing
import DexForge.Proofs.Descriptor.Text
import DexForge.Proofs.Pool.Catalog

/-! # The contents of pools

A slot denotes the texts that its entry resolves to. In well-formed pools every slot denotes
something, and different slots denote different things.
-/
set_option autoImplicit false

namespace DexForge

/-- What an entry of a table stands for. -/
abbrev Contents : TableName → Type
  | .string => String
  | .type => String
  | .proto => ProtoTexts
  | .field => FieldTexts
  | .method => MethodTexts

def ProtoDescriptor.texts (p : ProtoDescriptor) : ProtoTexts :=
  ⟨p.shorty, p.returns.text, p.params.map TypeDescriptor.text⟩

theorem ProtoDescriptor.eq_of_texts {p q : ProtoDescriptor}
    (hReturns : p.texts.returns = q.texts.returns) (hParams : p.texts.params = q.texts.params) : p = q := by
  cases p
  cases q
  have h := TypeDescriptor.text_injective hReturns
  have h' := TypeDescriptor.text_injective.list_map hParams
  cases h
  cases h'
  rfl

namespace Request

def contents : {t : TableName} → Request t → Contents t
  | _, string text => text
  | _, type descriptor => descriptor
  | _, proto descriptor => descriptor.texts
  | _, field owner name fieldType => MemberTexts.mk owner name fieldType
  | _, method owner name descriptor => MemberTexts.mk owner name descriptor.texts

end Request

namespace Pools

def contents? (p : Pools) : {t : TableName} → Slot t → Option (Contents t)
  | .string, slot => p.stringText? slot
  | .type, slot => p.typeText? slot
  | .proto, slot => p.protoTexts? slot
  | .field, slot => p.fieldTexts? slot
  | .method, slot => p.methodTexts? slot

def entryAt? (p : Pools) : {t : TableName} → Slot t → Option (Entry t)
  | .string, slot => p.strings.get? slot.position
  | .type, slot => p.types.get? slot.position
  | .proto, slot => p.protos.get? slot.position
  | .field, slot => p.fields.get? slot.position
  | .method, slot => p.methods.get? slot.position

def entries (p : Pools) : (t : TableName) → List (Entry t)
  | .string => p.strings.entries.toList
  | .type => p.types.entries.toList
  | .proto => p.protos.entries.toList
  | .field => p.fields.entries.toList
  | .method => p.methods.entries.toList

/-- What an entry denotes through the entries that it refers to. -/
def resolve? (p : Pools) : {t : TableName} → Entry t → Option (Contents t)
  | .string, text => some text
  | .type, name => p.stringText? name
  | .proto, key => p.keyTexts? key
  | .field, key => p.memberTexts? p.typeText? key
  | .method, key => p.memberTexts? p.protoTexts? key

variable {p p' : Pools} {t : TableName}

theorem length_entries (p : Pools) (t : TableName) : (p.entries t).length = p.size t := by
  cases t <;> rfl

theorem getElem?_entries (p : Pools) (slot : Slot t) :
    (p.entries t)[slot.position]? = p.entryAt? slot := by
  cases t <;> exact Array.getElem?_toList

theorem contents?_eq_some_iff {slot : Slot t} {x : Contents t} :
    p.contents? slot = some x ↔
      ∃ entry, p.entryAt? slot = some entry ∧ p.resolve? entry = some x := by
  cases t with
  | string =>
    constructor
    · intro h
      exact ⟨x, h, rfl⟩
    · rintro ⟨text, hText, ⟨⟩⟩
      exact hText
  | _ => exact Option.bind_eq_some_iff

theorem keyTexts?_eq_some_iff {key : ProtoKey} {texts : ProtoTexts} :
    p.keyTexts? key = some texts ↔ p.stringText? key.shorty = some texts.shorty ∧
      p.typeText? key.returns = some texts.returns ∧
      List.Forall₂ (fun param text => p.typeText? param = some text) key.params texts.params := by
  simp only [keyTexts?, Option.bind_eq_bind, Option.bind_eq_some_iff, Option.pure_def,
    Option.some.injEq, Pairing.mapM_eq_some_iff]
  constructor
  · rintro ⟨shorty, hShorty, returns, hReturns, params, hParams, rfl⟩
    exact ⟨hShorty, hReturns, hParams⟩
  · rintro ⟨hShorty, hReturns, hParams⟩
    exact ⟨_, hShorty, _, hReturns, _, hParams, rfl⟩

theorem memberTexts?_eq_some_iff {α : Type} {descriptor? : Slot t → Option α} {key : MemberKey t}
    {texts : MemberTexts α} :
    p.memberTexts? descriptor? key = some texts ↔ p.typeText? key.owner = some texts.owner ∧
      p.stringText? key.name = some texts.name ∧
      descriptor? key.descriptor = some texts.descriptor := by
  simp only [memberTexts?, Option.bind_eq_bind, Option.bind_eq_some_iff, Option.pure_def,
    Option.some.injEq]
  constructor
  · rintro ⟨owner, hOwner, name, hName, descriptor, hDescriptor, rfl⟩
    exact ⟨hOwner, hName, hDescriptor⟩
  · rintro ⟨hOwner, hName, hDescriptor⟩
    exact ⟨_, hOwner, _, hName, _, hDescriptor, rfl⟩

structure Extends (p p' : Pools) : Prop where
  strings : p.strings.Extends p'.strings
  types : p.types.Extends p'.types
  protos : p.protos.Extends p'.protos
  fields : p.fields.Extends p'.fields
  methods : p.methods.Extends p'.methods

theorem Extends.refl (p : Pools) : p.Extends p := ⟨.refl _, .refl _, .refl _, .refl _, .refl _⟩

theorem Extends.trans {p'' : Pools} (h : p.Extends p') (h' : p'.Extends p'') : p.Extends p'' :=
  ⟨h.strings.trans h'.strings, h.types.trans h'.types, h.protos.trans h'.protos,
   h.fields.trans h'.fields, h.methods.trans h'.methods⟩

theorem Extends.entryAt? (h : p.Extends p') {slot : Slot t} {entry : Entry t}
    (hEntry : p.entryAt? slot = some entry) : p'.entryAt? slot = some entry := by
  cases t with
  | string => exact h.strings _ _ hEntry
  | type => exact h.types _ _ hEntry
  | proto => exact h.protos _ _ hEntry
  | field => exact h.fields _ _ hEntry
  | method => exact h.methods _ _ hEntry

section Layers

/-! An entry refers to tables in front of its own, so a property of what slots denote goes from the
strings to the types, to the prototypes and to the members. -/

theorem Extends.stringText? (h : p.Extends p') {slot : Slot .string} {text : String}
    (hText : p.stringText? slot = some text) : p'.stringText? slot = some text :=
  h.strings _ _ hText

theorem Extends.typeText? (h : p.Extends p') {slot : Slot .type} {text : String}
    (hText : p.typeText? slot = some text) : p'.typeText? slot = some text := by
  obtain ⟨name, hName, hText⟩ := (contents?_eq_some_iff (t := .type)).mp hText
  exact (contents?_eq_some_iff (t := .type)).mpr ⟨name, h.entryAt? hName, h.stringText? hText⟩

theorem Extends.keyTexts? (h : p.Extends p') {key : ProtoKey} {texts : ProtoTexts}
    (hTexts : p.keyTexts? key = some texts) : p'.keyTexts? key = some texts := by
  rw [keyTexts?_eq_some_iff] at hTexts ⊢
  obtain ⟨hShorty, hReturns, hParams⟩ := hTexts
  exact ⟨h.stringText? hShorty, h.typeText? hReturns, hParams.imp fun _ _ => h.typeText?⟩

theorem Extends.protoTexts? (h : p.Extends p') {slot : Slot .proto} {texts : ProtoTexts}
    (hTexts : p.protoTexts? slot = some texts) : p'.protoTexts? slot = some texts := by
  obtain ⟨key, hKey, hTexts⟩ := (contents?_eq_some_iff (t := .proto)).mp hTexts
  exact (contents?_eq_some_iff (t := .proto)).mpr ⟨key, h.entryAt? hKey, h.keyTexts? hTexts⟩

theorem Extends.memberTexts? (h : p.Extends p') {α : Type}
    {descriptor? descriptor?' : Slot t → Option α} {key : MemberKey t} {texts : MemberTexts α}
    (hDescriptor : ∀ {slot x}, descriptor? slot = some x → descriptor?' slot = some x)
    (hTexts : p.memberTexts? descriptor? key = some texts) :
    p'.memberTexts? descriptor?' key = some texts := by
  rw [memberTexts?_eq_some_iff] at hTexts ⊢
  obtain ⟨hOwner, hName, hText⟩ := hTexts
  exact ⟨h.typeText? hOwner, h.stringText? hName, hDescriptor hText⟩

theorem Extends.resolve? (h : p.Extends p') {entry : Entry t} {x : Contents t}
    (hx : p.resolve? entry = some x) : p'.resolve? entry = some x := by
  cases t with
  | string => exact hx
  | type => exact h.stringText? hx
  | proto => exact h.keyTexts? hx
  | field => exact h.memberTexts? h.typeText? hx
  | method => exact h.memberTexts? h.protoTexts? hx

theorem Extends.contents? (h : p.Extends p') {slot : Slot t} {x : Contents t}
    (hx : p.contents? slot = some x) : p'.contents? slot = some x := by
  obtain ⟨entry, hEntry, hx⟩ := contents?_eq_some_iff.mp hx
  exact contents?_eq_some_iff.mpr ⟨entry, h.entryAt? hEntry, h.resolve? hx⟩

theorem slot_eq {a b : Slot t} (h : a.position = b.position) : a = b := by
  cases a
  cases b
  exact congrArg Slot.mk h

theorem entryAt?_injective {a b : Slot t} {entry : Entry t} (ha : p.entryAt? a = some entry)
    (hb : p.entryAt? b = some entry) : a = b := by
  apply slot_eq
  cases t <;> exact Catalog.get?_injective ha hb

theorem stringText?_injective {a b : Slot .string} {text : String}
    (ha : p.stringText? a = some text) (hb : p.stringText? b = some text) : a = b :=
  entryAt?_injective (t := .string) ha hb

theorem typeText?_injective {a b : Slot .type} {text : String} (ha : p.typeText? a = some text)
    (hb : p.typeText? b = some text) : a = b := by
  obtain ⟨name, hName, hText⟩ := (contents?_eq_some_iff (t := .type)).mp ha
  obtain ⟨name', hName', hText'⟩ := (contents?_eq_some_iff (t := .type)).mp hb
  rw [stringText?_injective hText hText'] at hName
  exact entryAt?_injective hName hName'

theorem keyTexts?_injective {a b : ProtoKey} {texts : ProtoTexts}
    (ha : p.keyTexts? a = some texts) (hb : p.keyTexts? b = some texts) : a = b := by
  obtain ⟨shorty, returns, params⟩ := a
  obtain ⟨shorty', returns', params'⟩ := b
  obtain ⟨hShorty, hReturns, hParams⟩ := keyTexts?_eq_some_iff.mp ha
  obtain ⟨hShorty', hReturns', hParams'⟩ := keyTexts?_eq_some_iff.mp hb
  obtain rfl : shorty = shorty' := stringText?_injective hShorty hShorty'
  obtain rfl : returns = returns' := typeText?_injective hReturns hReturns'
  obtain rfl : params = params' :=
    Pairing.eq_of_injective (S := fun param text => p.typeText? param = some text)
      (fun _ _ _ => typeText?_injective) hParams hParams'
  rfl

theorem protoTexts?_injective {a b : Slot .proto} {texts : ProtoTexts}
    (ha : p.protoTexts? a = some texts) (hb : p.protoTexts? b = some texts) : a = b := by
  obtain ⟨key, hKey, hTexts⟩ := (contents?_eq_some_iff (t := .proto)).mp ha
  obtain ⟨key', hKey', hTexts'⟩ := (contents?_eq_some_iff (t := .proto)).mp hb
  rw [keyTexts?_injective hTexts hTexts'] at hKey
  exact entryAt?_injective hKey hKey'

theorem memberTexts?_injective {α : Type} {descriptor? : Slot t → Option α}
    (hInjective : ∀ {a b x}, descriptor? a = some x → descriptor? b = some x → a = b)
    {a b : MemberKey t} {texts : MemberTexts α} (ha : p.memberTexts? descriptor? a = some texts)
    (hb : p.memberTexts? descriptor? b = some texts) : a = b := by
  obtain ⟨owner, name, descriptor⟩ := a
  obtain ⟨owner', name', descriptor'⟩ := b
  obtain ⟨hOwner, hName, hDescriptor⟩ := memberTexts?_eq_some_iff.mp ha
  obtain ⟨hOwner', hName', hDescriptor'⟩ := memberTexts?_eq_some_iff.mp hb
  obtain rfl : owner = owner' := typeText?_injective hOwner hOwner'
  obtain rfl : name = name' := stringText?_injective hName hName'
  obtain rfl : descriptor = descriptor' := hInjective hDescriptor hDescriptor'
  rfl

theorem resolve?_injective {a b : Entry t} {x : Contents t} (ha : p.resolve? a = some x)
    (hb : p.resolve? b = some x) : a = b := by
  cases t with
  | string => exact (Option.some.inj ha).trans (Option.some.inj hb).symm
  | type => exact stringText?_injective ha hb
  | proto => exact keyTexts?_injective ha hb
  | field => exact memberTexts?_injective typeText?_injective ha hb
  | method => exact memberTexts?_injective protoTexts?_injective ha hb

theorem contents?_injective {a b : Slot t} {x : Contents t} (ha : p.contents? a = some x)
    (hb : p.contents? b = some x) : a = b := by
  obtain ⟨entry, hEntry, hx⟩ := contents?_eq_some_iff.mp ha
  obtain ⟨entry', hEntry', hx'⟩ := contents?_eq_some_iff.mp hb
  rw [resolve?_injective hx hx'] at hEntry
  exact entryAt?_injective hEntry hEntry'

end Layers

def SameContents (p p' : Pools) (t : TableName) (slot slot' : Slot t) : Prop :=
  ∃ x, p.contents? slot = some x ∧ p'.contents? slot' = some x

/-- Something that stands in one of the tables. -/
abbrev Item := (t : TableName) × Contents t

/-- Texts have a limit, and the shorty of a prototype follows from its types. -/
def Item.Valid : Item → Prop
  | ⟨.string, text⟩ => Utf16.length text ≤ maxStringUnits
  | ⟨.proto, texts⟩ => ∃ descriptor : ProtoDescriptor, texts = descriptor.texts
  | _ => True

def Holds (p : Pools) (item : Item) : Prop := ∃ slot, p.contents? slot = some item.2

theorem Holds.mono {item : Item} (h : p.Holds item) (hExtends : p.Extends p') : p'.Holds item :=
  h.imp fun _ hSlot => hExtends.contents? hSlot

/-- Every slot denotes something, and what it denotes is valid. -/
structure WellFormed (p : Pools) : Prop where
  resolved : ∀ {t : TableName} (slot : Slot t), slot.position < p.size t →
    ∃ x, p.contents? slot = some x
  valid : ∀ item, p.Holds item → item.Valid

theorem WellFormed.exists_resolve? (hp : p.WellFormed) {entry : Entry t}
    (h : entry ∈ p.entries t) : ∃ x, p.resolve? entry = some x := by
  obtain ⟨i, hi⟩ := List.mem_iff_getElem?.mp h
  have hBound : i < p.size t := by
    rw [← p.length_entries]
    exact (List.getElem?_eq_some_iff.mp hi).1
  obtain ⟨x, hx⟩ := hp.resolved ⟨i⟩ hBound
  obtain ⟨entry', hEntry, hx⟩ := contents?_eq_some_iff.mp hx
  rw [← getElem?_entries, hi] at hEntry
  cases hEntry
  exact ⟨x, hx⟩

theorem lt_size_of_entryAt? {slot : Slot t} {entry : Entry t} (h : p.entryAt? slot = some entry) :
    slot.position < p.size t := by
  cases t <;> exact Catalog.lt_size_of_get? h

theorem lt_size_of_contents? {slot : Slot t} {x : Contents t} (h : p.contents? slot = some x) :
    slot.position < p.size t := by
  obtain ⟨entry, hEntry, -⟩ := contents?_eq_some_iff.mp h
  exact lt_size_of_entryAt? hEntry

theorem not_holds_empty (item : Item) : ¬empty.Holds item := by
  rintro ⟨slot, hSlot⟩
  have hBound := lt_size_of_contents? hSlot
  obtain ⟨t, x⟩ := item
  cases t <;> exact Nat.not_lt_zero _ hBound

theorem wellFormed_empty : empty.WellFormed where
  resolved {t} slot h := by cases t <;> exact absurd h (Nat.not_lt_zero _)
  valid item h := absurd h (not_holds_empty item)

/-- When one slot is new, the pools hold what it denotes and nothing else besides what they held. -/
theorem WellFormed.insert (hp : p.WellFormed) (hExtends : p.Extends p') {slot : Slot t}
    {x : Contents t} (hx : p'.contents? slot = some x)
    (hSlots : ∀ (t' : TableName) (s : Slot t'), s.position < p'.size t' →
      s.position < p.size t' ∨ (⟨t', s⟩ : (t : TableName) × Slot t) = ⟨t, slot⟩)
    (hValid : Item.Valid ⟨t, x⟩) :
    p'.WellFormed ∧ ∀ item, p'.Holds item ↔ p.Holds item ∨ item = ⟨t, x⟩ := by
  have hHolds : ∀ item, p'.Holds item ↔ p.Holds item ∨ item = ⟨t, x⟩ := by
    rintro ⟨t', y⟩
    constructor
    · rintro ⟨s, hs⟩
      obtain hOld | hNew := hSlots t' s (lt_size_of_contents? hs)
      · obtain ⟨z, hz⟩ := hp.resolved s hOld
        refine Or.inl ⟨s, ?_⟩
        rw [hz, ← hs, hExtends.contents? hz]
      · cases hNew
        rw [hx, Option.some.injEq] at hs
        subst hs
        exact Or.inr rfl
    · rintro (hOld | hNew)
      · exact hOld.mono hExtends
      · cases hNew
        exact ⟨slot, hx⟩
  refine ⟨⟨?_, ?_⟩, hHolds⟩
  · intro t' s hs
    obtain hOld | hNew := hSlots t' s hs
    · obtain ⟨z, hz⟩ := hp.resolved s hOld
      exact ⟨z, hExtends.contents? hz⟩
    · cases hNew
      exact ⟨x, hx⟩
  · intro item hItem
    obtain hOld | rfl := (hHolds item).mp hItem
    · exact hp.valid item hOld
    · exact hValid

section Added

variable (p) (entry : Entry t)

theorem extends_add : p.Extends (add entry p).2 := by
  cases t with
  | string => exact ⟨p.strings.extends_insert entry, .refl _, .refl _, .refl _, .refl _⟩
  | type => exact ⟨.refl _, p.types.extends_insert entry, .refl _, .refl _, .refl _⟩
  | proto => exact ⟨.refl _, .refl _, p.protos.extends_insert entry, .refl _, .refl _⟩
  | field => exact ⟨.refl _, .refl _, .refl _, p.fields.extends_insert entry, .refl _⟩
  | method => exact ⟨.refl _, .refl _, .refl _, .refl _, p.methods.extends_insert entry⟩

theorem entryAt?_add : (add entry p).2.entryAt? (add entry p).1 = some entry := by
  cases t <;> exact Catalog.get?_insert _ _

variable {p entry}

theorem add_of_entryAt? {slot : Slot t} (h : p.entryAt? slot = some entry) :
    add entry p = (slot, p) := by
  obtain ⟨strings, types, protos, fields, methods⟩ := p
  have hInsert : ∀ {α : Type} [BEq α] [Hashable α] [LawfulBEq α] {c : Catalog α} {a : α},
      c.get? slot.position = some a → c.insert a = (slot.position, c) :=
    fun hGet => Catalog.insert_of_find? ((Catalog.find?_eq_some_iff _ _ _).mpr hGet)
  cases t <;> simp only [add, hInsert h]

/-- Only the table of the entry grows, and only by the slot of the entry. -/
theorem lt_size_of_add {t' : TableName} {slot : Slot t'}
    (h : slot.position < (add entry p).2.size t') : slot.position < p.size t' ∨
      (⟨t', slot⟩ : (t : TableName) × Slot t) = ⟨t, (add entry p).1⟩ := by
  by_cases hTable : t' = t
  · subst hTable
    have hPosition : slot.position < p.size t' ∨ slot.position = (add entry p).1.position := by
      cases t' <;> exact Catalog.lt_size_of_insert h
    exact hPosition.imp_right fun hSame => by rw [slot_eq hSame]
  · have hSize : (add entry p).2.size t' = p.size t' := by
      cases t <;> cases t' <;> first | rfl | exact absurd rfl hTable
    exact Or.inl (hSize ▸ h)

theorem contents?_add {x : Contents t} (hx : p.resolve? entry = some x) :
    (add entry p).2.contents? (add entry p).1 = some x :=
  contents?_eq_some_iff.mpr ⟨entry, entryAt?_add p entry, (extends_add p entry).resolve? hx⟩

theorem WellFormed.add (hp : p.WellFormed) {x : Contents t} (hx : p.resolve? entry = some x)
    (hValid : Item.Valid ⟨t, x⟩) : (add entry p).2.WellFormed ∧
      ∀ item, (add entry p).2.Holds item ↔ p.Holds item ∨ item = ⟨t, x⟩ :=
  hp.insert (extends_add p entry) (contents?_add hx) (fun _ _ => lt_size_of_add) hValid

end Added

end Pools

end DexForge
