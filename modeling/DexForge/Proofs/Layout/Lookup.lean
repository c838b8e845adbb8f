import DexForge.Proofs.Container.Consistency
import DexForge.Proofs.Layout.StoredClasses
import DexForge.Proofs.Pool.Narrowing

/-! # Looking up what was finished

The accessors of a container give the texts that the places of a ranking denote.
-/
set_option autoImplicit false

namespace DexForge

abbrev Referent : TableName → Type
  | .string => String
  | .type => String
  | .proto => String
  | .field => MemberRef
  | .method => MemberRef

def ProtoTexts.text (p : ProtoTexts) : String := "(" ++ String.join p.params ++ ")" ++ p.returns

namespace Contents

def referent : {t : TableName} → Contents t → Referent t
  | .string, text => text
  | .type, text => text
  | .proto, texts => texts.text
  | .field, texts => MemberRef.mk texts.owner texts.name texts.descriptor
  | .method, texts => MemberRef.mk texts.owner texts.name texts.descriptor.text

end Contents

namespace Container

def lookup (c : Container) : (t : TableName) → UInt32 → Except ContainerError (Referent t)
  | .string, i => c.string i
  | .type, i => c.typeText i
  | .proto, i => c.protoText i
  | .field, i => c.fieldRef i
  | .method, i => c.methodRef i

def protoTexts (c : Container) (index : UInt32) : Except ContainerError ProtoTexts := do
  let proto ← entry .proto c.protos index
  let shorty ← c.string proto.shorty
  let params ← proto.params.mapM fun param => c.typeText param.toUInt32
  return ⟨shorty, ← c.typeText proto.returns, params⟩

def memberTexts {α : Type} (c : Container) (descriptor : UInt32 → Except ContainerError α)
    (member : MemberId) : Except ContainerError (MemberTexts α) := do
  let owner ← c.typeText member.owner.toUInt32
  let name ← c.string member.name
  return ⟨owner, name, ← descriptor member.descriptor.toUInt32⟩

def fieldTexts (c : Container) (index : UInt32) : Except ContainerError FieldTexts := do
  c.memberTexts c.typeText (← entry .field c.fields index)

def methodTexts (c : Container) (index : UInt32) : Except ContainerError MethodTexts := do
  c.memberTexts c.protoTexts (← entry .method c.methods index)

theorem protoText_of_protoTexts {c : Container} {i : UInt32} {texts : ProtoTexts}
    (h : c.protoTexts i = .ok texts) : c.protoText i = .ok texts.text := by
  obtain ⟨proto, hEntry, h⟩ := Except.bind_eq_ok_iff.mp h
  obtain ⟨shorty, -, h⟩ := Except.bind_eq_ok_iff.mp h
  obtain ⟨params, hParams, h⟩ := Except.bind_eq_ok_iff.mp h
  obtain ⟨returns, hReturns, h⟩ := Except.bind_eq_ok_iff.mp h
  cases h
  rw [protoText, hEntry, Except.ok_bind, hParams, Except.ok_bind, hReturns, Except.ok_bind]
  rfl

theorem memberRef_of_memberTexts {c : Container} {α : Type}
    {descriptor : UInt32 → Except ContainerError α} {text : α → String}
    {descriptorText : UInt32 → Except ContainerError String}
    (hText : ∀ {i x}, descriptor i = .ok x → descriptorText i = .ok (text x)) {m : MemberId}
    {texts : MemberTexts α} (h : c.memberTexts descriptor m = .ok texts) :
    c.memberRef descriptorText m = .ok ⟨texts.owner, texts.name, text texts.descriptor⟩ := by
  obtain ⟨owner, hOwner, h⟩ := Except.bind_eq_ok_iff.mp h
  obtain ⟨name, hName, h⟩ := Except.bind_eq_ok_iff.mp h
  obtain ⟨x, hDescriptor, h⟩ := Except.bind_eq_ok_iff.mp h
  cases h
  rw [memberRef, hOwner, Except.ok_bind, hName, Except.ok_bind, hText hDescriptor, Except.ok_bind]
  rfl

theorem fieldRef_of_fieldTexts {c : Container} {i : UInt32} {texts : FieldTexts}
    (h : c.fieldTexts i = .ok texts) :
    c.fieldRef i = .ok ⟨texts.owner, texts.name, texts.descriptor⟩ := by
  obtain ⟨field, hEntry, h⟩ := Except.bind_eq_ok_iff.mp h
  exact Except.bind_eq_ok_iff.mpr ⟨field, hEntry, memberRef_of_memberTexts id h⟩

theorem methodRef_of_methodTexts {c : Container} {i : UInt32} {texts : MethodTexts}
    (h : c.methodTexts i = .ok texts) :
    c.methodRef i = .ok ⟨texts.owner, texts.name, texts.descriptor.text⟩ := by
  obtain ⟨method, hEntry, h⟩ := Except.bind_eq_ok_iff.mp h
  exact Except.bind_eq_ok_iff.mpr
    ⟨method, hEntry, memberRef_of_memberTexts protoText_of_protoTexts h⟩

/-- The row of a prototype, without the offset of its parameters. -/
structure ShowsProto (row : ProtoPlaces) (proto : ProtoId) : Prop where
  shorty : proto.shorty = UInt32.ofNat row.shorty
  returns : proto.returns = (UInt16.ofNat row.returns).toUInt32
  params : proto.params = row.params.map UInt16.ofNat

/-- The tables of the container are those of the ranking, and its indices reach all of them. -/
structure Shows (c : Container) (r : Ranking) : Prop where
  strings : c.strings = r.strings.entries
  types : c.types = r.types.entries.map UInt32.ofNat
  protos : List.Forall₂ ShowsProto r.protos.entries.toList c.protos.toList
  fields : c.fields = r.fields.entries.map MemberPlaces.narrow
  methods : c.methods = r.methods.entries.map MemberPlaces.narrow
  small : r.Fits

namespace Shows

variable {c : Container} {r : Ranking}

theorem toNat_ofNat (h : c.Shows r) {t : TableName} {j : Nat} {x : Contents t}
    (hx : r.contents? t j = some x) : (UInt32.ofNat j).toNat = j :=
  Ranking.toNat_ofNat (h.small.lt_capacity hx)

theorem string_eq_ok (h : c.Shows r) {j : Nat} {text : String} (hText : r.string? j = some text) :
    c.string (UInt32.ofNat j) = .ok text := by
  rw [Container.string, entry_eq_ok_iff, h.toNat_ofNat (t := .string) hText, h.strings]
  exact hText

theorem typeText_eq_ok (h : c.Shows r) {j : Nat} {text : String} (hText : r.type? j = some text) :
    c.typeText (UInt32.ofNat j) = .ok text := by
  obtain ⟨name, hName, hString⟩ := Option.bind_eq_some_iff.mp hText
  rw [Container.typeText, Except.bind_eq_ok_iff]
  refine ⟨UInt32.ofNat name, ?_, h.string_eq_ok hString⟩
  rw [entry_eq_ok_iff, h.toNat_ofNat (t := .type) hText, h.types, Array.getElem?_map, hName]
  rfl

theorem typeText_narrow (h : c.Shows r) {j : Nat} {text : String} (hText : r.type? j = some text) :
    c.typeText (UInt16.ofNat j).toUInt32 = .ok text := by
  rw [Ranking.toUInt32_ofNat (h.small.lt_capacity (t := .type) hText)]
  exact h.typeText_eq_ok hText

theorem params_eq_ok (h : c.Shows r) {places : List Nat} {texts : List String}
    (hTexts : List.Forall₂ (fun j text => r.type? j = some text) places texts) :
    (places.map UInt16.ofNat).mapM (fun param => c.typeText param.toUInt32) = .ok texts := by
  rw [Except.mapM_eq_ok_iff, List.forall₂_map_left_iff]
  exact hTexts.imp fun _ _ hText => h.typeText_narrow hText

theorem protoTexts_eq_ok (h : c.Shows r) {j : Nat} {texts : ProtoTexts}
    (hTexts : r.proto? j = some texts) : c.protoTexts (UInt32.ofNat j) = .ok texts := by
  obtain ⟨row, hRow, hProto⟩ := Option.bind_eq_some_iff.mp hTexts
  obtain ⟨hShorty, hReturns, hParams⟩ := Ranking.protoOf?_eq_some_iff.mp hProto
  rw [← Array.getElem?_toList] at hRow
  obtain ⟨proto, hEntry, hShows⟩ := Pairing.getElem?_left h.protos hRow
  rw [Array.getElem?_toList] at hEntry
  rw [Container.protoTexts, Except.bind_eq_ok_iff]
  refine ⟨proto, ?_, ?_⟩
  · rw [entry_eq_ok_iff, h.toNat_ofNat (t := .proto) hTexts]
    exact hEntry
  · rw [hShows.shorty, h.string_eq_ok hShorty, Except.ok_bind, hShows.params,
      h.params_eq_ok hParams, Except.ok_bind, hShows.returns, h.typeText_narrow hReturns,
      Except.ok_bind]
    rfl

theorem protoTexts_narrow (h : c.Shows r) {j : Nat} {texts : ProtoTexts}
    (hTexts : r.proto? j = some texts) : c.protoTexts (UInt16.ofNat j).toUInt32 = .ok texts := by
  rw [Ranking.toUInt32_ofNat (h.small.lt_capacity (t := .proto) hTexts)]
  exact h.protoTexts_eq_ok hTexts

theorem memberTexts_eq_ok (h : c.Shows r) {α : Type} {descriptor? : Nat → Option α}
    {descriptor : UInt32 → Except ContainerError α}
    (hDescriptor : ∀ {j x}, descriptor? j = some x → descriptor (UInt16.ofNat j).toUInt32 = .ok x)
    {row : MemberPlaces} {texts : MemberTexts α} (hTexts : r.memberOf? descriptor? row = some texts) :
    c.memberTexts descriptor row.narrow = .ok texts := by
  obtain ⟨hOwner, hName, hText⟩ := Ranking.memberOf?_eq_some_iff.mp hTexts
  rw [MemberPlaces.narrow, Container.memberTexts, h.typeText_narrow hOwner, Except.ok_bind,
    h.string_eq_ok hName, Except.ok_bind, hDescriptor hText, Except.ok_bind]
  rfl

theorem fieldTexts_eq_ok (h : c.Shows r) {j : Nat} {texts : FieldTexts}
    (hTexts : r.contents? .field j = some texts) : c.fieldTexts (UInt32.ofNat j) = .ok texts := by
  obtain ⟨row, hRow, hField⟩ := Option.bind_eq_some_iff.mp hTexts
  refine Except.bind_eq_ok_iff.mpr ⟨row.narrow, ?_, h.memberTexts_eq_ok h.typeText_narrow hField⟩
  rw [entry_eq_ok_iff, h.toNat_ofNat hTexts, h.fields, Array.getElem?_map, hRow]
  rfl

theorem methodTexts_eq_ok (h : c.Shows r) {j : Nat} {texts : MethodTexts}
    (hTexts : r.contents? .method j = some texts) : c.methodTexts (UInt32.ofNat j) = .ok texts := by
  obtain ⟨row, hRow, hMethod⟩ := Option.bind_eq_some_iff.mp hTexts
  refine Except.bind_eq_ok_iff.mpr ⟨row.narrow, ?_, h.memberTexts_eq_ok h.protoTexts_narrow hMethod⟩
  rw [entry_eq_ok_iff, h.toNat_ofNat hTexts, h.methods, Array.getElem?_map, hRow]
  rfl

theorem lookup_eq_ok (h : c.Shows r) {t : TableName} {j : Nat} {x : Contents t}
    (hx : r.contents? t j = some x) : c.lookup t (UInt32.ofNat j) = .ok (Contents.referent x) := by
  cases t with
  | string => exact h.string_eq_ok hx
  | type => exact h.typeText_eq_ok hx
  | proto => exact protoText_of_protoTexts (h.protoTexts_eq_ok hx)
  | field => exact fieldRef_of_fieldTexts (h.fieldTexts_eq_ok hx)
  | method => exact methodRef_of_methodTexts (h.methodTexts_eq_ok hx)

/-- The texts that a slot denotes are found at its final index. -/
theorem lookup_of_place {p : Pools} (h : c.Shows r) (hOrders : r.Orders p) {t : TableName}
    (slot : Slot t) {i : UInt32} (hPlace : r.place? slot = some i.toNat) {x : Contents t}
    (hx : p.contents? slot = some x) : c.lookup t i = .ok (Contents.referent x) := by
  rw [← hOrders.contents_of_place hPlace] at hx
  rw [← h.lookup_eq_ok hx, UInt32.ofNat_toNat]

theorem methodTexts_of_place {p : Pools} (h : c.Shows r) (hOrders : r.Orders p)
    (slot : Slot .method) {i : UInt32} (hPlace : r.place? slot = some i.toNat) {texts : MethodTexts}
    (hTexts : p.contents? slot = some texts) : c.methodTexts i = .ok texts := by
  rw [← hOrders.contents_of_place hPlace] at hTexts
  rw [← h.methodTexts_eq_ok hTexts, UInt32.ofNat_toNat]

end Shows

end Container

namespace Image

theorem exists_shows {pools : Pools} {tables : Tables} (hTables : pools.finish = .ok tables)
    {classes : List ClassDefinition} {bytes : Bytes} (hWrite : write tables classes = .ok bytes) :
    ∃ (r : Ranking) (c : Container) (order : List ClassDefinition),
      tables = r.narrow ∧ r.Orders pools ∧ Container.load bytes = .ok c ∧ c.Shows r ∧
      order.Perm classes ∧ List.Forall₂ (ClassStored tables) order c.classes.toList ∧
      c.header.data.offset.toNat + c.header.data.size.toNat = bytes.size := by
  obtain ⟨linked, ordered, draft, region, fileSize, hLinked, hOrdered, hWritten⟩ :=
    write_eq_ok hWrite
  obtain ⟨items, hLoad⟩ := hWritten.load_eq_ok
  obtain ⟨order, -, hPerm, hClasses⟩ := hWritten.exists_order hTables hLinked hOrdered
  obtain ⟨r, hOrders, rfl, hSizes⟩ := Pools.finish_eq_ok hTables
  have hStop := hWritten.stop_lt
  have hStrings : r.narrow.strings.entries.size ≤ 0x100000000 := by omega
  refine ⟨r, _, order, rfl, hOrders, hLoad, ?_, hPerm, hClasses, ?_⟩
  swap
  · simp only [Draft.container, Seal.sealedHeader, Header.withSeal_data]
    exact hWritten.stop_data _
  refine ⟨rfl, rfl, ?_, rfl, rfl, Pools.size_le_capacity hOrders hSizes hStrings⟩
  have hRows : r.narrow.protos.entries.toList = r.protos.entries.toList.map ProtoPlaces.narrow :=
    Array.toList_map
  have hProtos := hWritten.laid.protos
  rw [hRows, List.forall₂_map_left_iff] at hProtos
  refine hProtos.imp ?_
  rintro row proto ⟨hRow, -⟩
  rw [hRow]
  exact ⟨rfl, rfl, rfl⟩

end Image

end DexForge
