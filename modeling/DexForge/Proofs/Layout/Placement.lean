import DexForge.Layout.Image
import DexForge.Proofs.Container.Disassembly
import DexForge.Proofs.Control.Pairing
import DexForge.Proofs.Layout.DataRegion
import DexForge.Proofs.Order.Sorting
import DexForge.Proofs.Pool.Catalog
import DexForge.Proofs.Proxy.Lowering

/-! # What the data region holds

Code items, type lists, string data and class data are placed one behind the other. Every offset
that the layout writes down is the offset of the item it stands for.
-/
set_option autoImplicit false

namespace DexForge.Image

open Placing

/-- `code` is the code of `body`: its frame, no exception handlers, its operations lowered. -/
structure StoresCode (tables : Tables) (body : MethodBody Slot) (code : CodeItem) : Prop where
  registers : code.registers = body.registers
  ins : code.ins = body.ins
  outs : code.outs = body.outs
  tries : code.tries = 0
  debugInfo : code.debugInfo = 0
  instructions : ∃ is, body.code.mapM (Operation.lower tables) = .ok is ∧
    code.instructions = .ok (CodeItem.positioned 0 is).toArray

structure StoresMethod (tables : Tables) (m : LinkedMethod) (entry : MethodEntry) : Prop where
  method : entry.method = m.method.toUInt32
  access : entry.access = m.access
  code : ∃ code, entry.code = some code ∧ code.offset = entry.codeOffset ∧
    StoresCode tables m.body code

def CodePlaced (r : DataRegion) (entry : MethodEntry) : Prop :=
  ∃ code, entry.code = some code ∧ code.offset = entry.codeOffset ∧
    code.units.length < 0x100000000 ∧ r.Holds code.offset.toNat code.encode

theorem CodePlaced.mono {r r' : DataRegion} {entry : MethodEntry} (hExtends : r.Extends r')
    (h : CodePlaced r entry) : CodePlaced r' entry := by
  obtain ⟨code, hSome, hOffset, hUnits, hHolds⟩ := h
  exact ⟨code, hSome, hOffset, hUnits, hHolds.mono hExtends⟩

theorem placeCode_eq_ok {tables : Tables} {body : MethodBody Slot} {r r' : DataRegion}
    {code : CodeItem} (h : placeCode tables body r = .ok (code, r')) :
    Appended r r' code.offset code.encode ∧ StoresCode tables body code ∧
      code.units.length < 0x100000000 ∧ 4 ∣ code.offset.toNat := by
  obtain ⟨u, s, hAlign, h⟩ := bind_eq_ok_iff.mp h
  obtain ⟨hPadded, hAligned⟩ := align_eq_ok hAlign
  obtain ⟨offset, t, hHere, h⟩ := bind_eq_ok_iff.mp h
  obtain ⟨hOffset, rfl⟩ := here_eq_ok hHere
  obtain ⟨is, t, hLower, h⟩ := bind_eq_ok_iff.mp h
  obtain ⟨hLowered, rfl⟩ := lift_eq_ok_iff.mp hLower
  simp only at h
  split at h
  · obtain ⟨_, _, hThrow, -⟩ := bind_eq_ok_iff.mp h
    exact absurd hThrow throw_ne_ok
  · next hUnits =>
    obtain ⟨_, t, hAppend, h⟩ := bind_eq_ok_iff.mp h
    obtain ⟨rfl, rfl⟩ := pure_eq_ok_iff.mp h
    obtain ⟨hExtends, hHolds, -⟩ := append_eq_ok hAppend
    have hWellFormed : ∀ i ∈ is, i.WellFormed := by
      intro i hi
      obtain ⟨op, -, hOp⟩ := Pairing.exists_of_mem_right (Except.mapM_eq_ok_iff.mp hLowered) hi
      exact Operation.wellFormed_of_lower hOp
    refine ⟨⟨hPadded.trans hExtends, ?_, ?_⟩, ⟨rfl, rfl, rfl, rfl, rfl, is, hLowered, ?_⟩,
      Nat.lt_of_not_le hUnits, ?_⟩
    · rw [hOffset]
      exact hPadded.stop_le
    · rw [hOffset]
      exact hHolds
    · exact CodeItem.instructions_of_units rfl hWellFormed
    · rw [hOffset]
      exact hAligned

theorem placeMethod_eq_ok {tables : Tables} {m : LinkedMethod} {r r' : DataRegion}
    {entry : MethodEntry} (h : placeMethod tables m r = .ok (entry, r')) :
    r.Extends r' ∧ r.stop ≤ entry.codeOffset.toNat ∧ entry.codeOffset.toNat < r'.stop ∧
      StoresMethod tables m entry ∧ CodePlaced r' entry := by
  obtain ⟨code, s, hCode, h⟩ := bind_eq_ok_iff.mp h
  obtain ⟨rfl, rfl⟩ := pure_eq_ok_iff.mp h
  obtain ⟨hAppended, hStores, hUnits, -⟩ := placeCode_eq_ok hCode
  have hStop := hAppended.holds.stop_le
  have hLength : 0 < code.encode.length := by
    simp only [CodeItem.encode, List.length_append, LittleEndian.length_ofUInt16]
    omega
  refine ⟨hAppended.extended, hAppended.behind, ?_, ⟨rfl, rfl, code, rfl, rfl, hStores⟩,
    code, rfl, rfl, hUnits, hAppended.holds⟩
  change code.offset.toNat < s.stop
  omega

/-- `declared` has the members of `c` in the order of declaration; code stands in that order. -/
structure StoresMembers (tables : Tables) (c : LinkedClass) (declared : ClassData) : Prop where
  staticFields : declared.staticFields = c.staticFields
  instanceFields : declared.instanceFields = c.instanceFields
  directMethods : List.Forall₂ (StoresMethod tables) c.directMethods declared.directMethods
  virtualMethods : List.Forall₂ (StoresMethod tables) c.virtualMethods declared.virtualMethods
  directCode : declared.directMethods.Pairwise fun a b => a.codeOffset < b.codeOffset
  virtualCode : declared.virtualMethods.Pairwise fun a b => a.codeOffset < b.codeOffset

theorem mapM_placeMethod_eq_ok {tables : Tables} {methods : List LinkedMethod} {r r' : DataRegion}
    {entries : List MethodEntry} (h : methods.mapM (placeMethod tables) r = .ok (entries, r')) :
    r.Extends r' ∧ List.Forall₂ (StoresMethod tables) methods entries ∧
      (entries.Pairwise fun a b => a.codeOffset < b.codeOffset) ∧
      ∀ m ∈ entries, CodePlaced r' m := by
  have hRun := mapM_eq_ok (P := fun r m entry => StoresMethod tables m entry ∧ CodePlaced r entry)
    (fun hExtends hP => ⟨hP.1, hP.2.mono hExtends⟩)
    (fun m _ r entry r' hStep =>
      have hPlaced := placeMethod_eq_ok hStep
      ⟨hPlaced.1, hPlaced.2.2.2⟩) h
  have hOrder := mapM_ascending (fun entry : MethodEntry => entry.codeOffset.toNat)
    (fun hStep =>
      have hPlaced := placeMethod_eq_ok hStep
      ⟨hPlaced.2.1, hPlaced.2.2.1⟩) h
  refine ⟨hRun.1, hRun.2.imp fun _ _ hP => hP.1, hOrder.2, ?_⟩
  intro m hm
  obtain ⟨_, -, hP⟩ := Pairing.exists_of_mem_right hRun.2 hm
  exact hP.2

theorem placeMethods_eq_ok {tables : Tables} {c : LinkedClass} {r r' : DataRegion}
    {declared : ClassData} (h : placeMethods tables c r = .ok (declared, r')) :
    r.Extends r' ∧ StoresMembers tables c declared ∧ ∀ m ∈ declared.methods, CodePlaced r' m := by
  obtain ⟨direct, s, hDirect, h⟩ := bind_eq_ok_iff.mp h
  obtain ⟨virtual, t, hVirtual, h⟩ := bind_eq_ok_iff.mp h
  obtain ⟨rfl, rfl⟩ := pure_eq_ok_iff.mp h
  obtain ⟨hFirst, hDirect, hDirectCode, hDirectPlaced⟩ := mapM_placeMethod_eq_ok hDirect
  obtain ⟨hSecond, hVirtual, hVirtualCode, hVirtualPlaced⟩ := mapM_placeMethod_eq_ok hVirtual
  refine ⟨hFirst.trans hSecond, ⟨rfl, rfl, hDirect, hVirtual, hDirectCode, hVirtualCode⟩, ?_⟩
  intro m hm
  obtain hm | hm := List.mem_append.mp hm
  · exact (hDirectPlaced m hm).mono hSecond
  · exact hVirtualPlaced m hm

instance : Std.TransCmp compareFields :=
  inferInstanceAs (Std.TransCmp (compareLex (compareOn FieldEntry.field)
    (compareOn fun f => f.access.bits)))

instance : Std.TransCmp compareMethods :=
  inferInstanceAs (Std.TransCmp (compareLex (compareOn MethodEntry.method)
    (compareLex (compareOn fun m => m.access.bits) (compareOn MethodEntry.codeOffset))))

/-- `stored` has the members of `declared` in the order of their final indices; entries of one index
stand in the order of their access bits and then of their code. -/
structure SortsMembers (declared stored : ClassData) : Prop where
  staticFields : Sorts compareFields declared.staticFields stored.staticFields
  instanceFields : Sorts compareFields declared.instanceFields stored.instanceFields
  directMethods : Sorts compareMethods declared.directMethods stored.directMethods
  virtualMethods : Sorts compareMethods declared.virtualMethods stored.virtualMethods

theorem sortMembers_sorts (d : ClassData) : SortsMembers d (sortMembers d) :=
  ⟨sorts_mergeSort _, sorts_mergeSort _, sorts_mergeSort _, sorts_mergeSort _⟩

theorem SortsMembers.mem_methods {declared stored : ClassData} (h : SortsMembers declared stored)
    {m : MethodEntry} (hm : m ∈ stored.methods) : m ∈ declared.methods := by
  obtain hm | hm := List.mem_append.mp hm
  · exact List.mem_append_left _ (h.directMethods.perm.mem_iff.mp hm)
  · exact List.mem_append_right _ (h.virtualMethods.perm.mem_iff.mp hm)

/-- A nonempty type list stands at its offset; the empty one has none. -/
def TypeListPlaced (r : DataRegion) (types : List UInt16) (offset : UInt32) : Prop :=
  types = [] ∧ offset = 0 ∨ r.Holds offset.toNat (encodeTypeList types)

theorem TypeListPlaced.mono {r r' : DataRegion} {types : List UInt16} {offset : UInt32}
    (hExtends : r.Extends r') (h : TypeListPlaced r types offset) : TypeListPlaced r' types offset :=
  h.imp_right fun hHolds => hHolds.mono hExtends

theorem mem_collect {lists : List (List UInt16)} {c : Catalog (List UInt16)}
    {types : List UInt16} :
    types ∈ (lists.foldl (fun c types => if types.isEmpty then c else (c.insert types).2) c).entries ↔
      types ∈ c.entries ∨ types ∈ lists ∧ types ≠ [] := by
  induction lists generalizing c with
  | nil => simp
  | cons first rest ih =>
    rw [List.foldl_cons, ih, List.mem_cons]
    by_cases hFirst : first = []
    · subst hFirst
      simp only [List.isEmpty_nil, if_true]
      by_cases hTypes : types = [] <;> simp [hTypes]
    · rw [if_neg (by simpa using hFirst), Catalog.mem_insert_iff]
      by_cases hSame : types = first
      · subst hSame
        simp [hFirst]
      · simp [hSame]

theorem typeListOffset_placed {lists : List (List UInt16)} {r : DataRegion} {offsets : List UInt32}
    (h : List.Forall₂ (fun types offset => r.Holds offset.toNat (encodeTypeList types))
      (collectTypeLists lists).entries.toList offsets)
    {types : List UInt16} (hTypes : types ∈ lists) :
    TypeListPlaced r types (typeListOffset (collectTypeLists lists) offsets.toArray types) := by
  rw [typeListOffset]
  cases hFind : (collectTypeLists lists).find? types with
  | none =>
    have hMissing : types ∉ (collectTypeLists lists).entries := by
      rw [← Catalog.isSome_find?_iff, hFind]
      simp
    rw [collectTypeLists, mem_collect] at hMissing
    refine Or.inl ⟨?_, rfl⟩
    by_contra hNonempty
    exact hMissing (Or.inr ⟨hTypes, hNonempty⟩)
  | some i =>
    have hGet := (Catalog.find?_eq_some_iff _ _ _).mp hFind
    rw [Catalog.get?, ← Array.getElem?_toList] at hGet
    obtain ⟨offset, hOffset, hHolds⟩ := Pairing.getElem?_left h hGet
    refine Or.inr ?_
    simpa [hOffset] using hHolds

structure StoresClass (tables : Tables) (c : LinkedClass) (d : ClassDef) : Prop where
  type : d.type = c.type.toUInt32
  access : d.access = c.access
  superclass : d.superclass = (c.superclass.map UInt16.toUInt32).getD noIndex
  interfaces : d.interfaces = c.interfaces
  sourceFile : d.sourceFile = c.sourceFile.getD noIndex
  members : ∃ declared data, StoresMembers tables c declared ∧ SortsMembers declared data ∧
    d.data = some data

structure ClassPlaced (r : DataRegion) (d : ClassDef) : Prop where
  interfaces : TypeListPlaced r d.interfaces d.interfacesOffset
  data : ∃ data, d.data = some data ∧ r.Holds d.dataOffset.toNat data.encode ∧
    ∀ m ∈ data.methods, CodePlaced r m

structure Laid (tables : Tables) (classes : List LinkedClass) (r : DataRegion) (draft : Draft) :
    Prop where
  protos : List.Forall₂ (fun row p => p = protoId (fun _ => p.paramsOffset) row ∧
    TypeListPlaced r row.params p.paramsOffset) tables.protos.entries.toList draft.protos
  classes : List.Forall₂ (fun c d => StoresClass tables c d ∧ ClassPlaced r d) classes draft.classes
  strings : List.Forall₂ (fun text offset => r.Holds offset.toNat (encodeText text))
    tables.strings.entries.toList draft.stringOffsets
  map : ∃ items, items.length < 0x100000000 ∧ r.Holds draft.mapOffset.toNat (encodeMap items)

/-- What a layout decides about the data region. -/
structure DataPlan where
  declared : List ClassData
  listOffsets : List UInt32
  stringOffsets : List UInt32
  dataOffsets : List UInt32
  mapOffset : UInt32

namespace DataPlan

variable (tables : Tables) (ids : Sections) (classes : List LinkedClass) (plan : DataPlan)

def data : List ClassData := plan.declared.map sortMembers

def typeList : List UInt16 → UInt32 :=
  typeListOffset (collectTypeLists (tables.protos.entries.toList.map ProtoRow.params ++
    classes.map LinkedClass.interfaces)) plan.listOffsets.toArray

def codeOffsets : List UInt32 := plan.declared.flatMap fun d => d.methods.map MethodEntry.codeOffset

def map : List MapItem :=
  [⟨.header, 1, 0⟩] ++
    mapSection .stringId ids.strings ++ mapSection .typeId ids.types ++
    mapSection .protoId ids.protos ++ mapSection .fieldId ids.fields ++
    mapSection .methodId ids.methods ++ mapSection .classDef ids.classes ++
    mapItems .codeItem plan.codeOffsets ++ mapItems .typeList plan.listOffsets ++
    mapItems .stringData plan.stringOffsets ++ mapItems .classData plan.dataOffsets ++
    [⟨.mapList, 1, plan.mapOffset⟩]

def draft : Draft where
  protos := tables.protos.entries.toList.map (protoId (plan.typeList tables classes))
  classes := (classes.zip (plan.data.zip plan.dataOffsets)).map fun (c, d, offset) =>
    classDef (plan.typeList tables classes) c d offset
  stringOffsets := plan.stringOffsets
  mapOffset := plan.mapOffset

end DataPlan

theorem length_mapSection_le (kind : ItemKind) (s : Section) : (mapSection kind s).length ≤ 1 := by
  unfold mapSection
  split <;> simp

theorem length_mapItems_le (kind : ItemKind) (offsets : List UInt32) :
    (mapItems kind offsets).length ≤ 1 := by
  unfold mapItems
  split <;> simp

theorem DataPlan.length_map_le (ids : Sections) (plan : DataPlan) : (plan.map ids).length ≤ 12 := by
  have h₁ := length_mapSection_le .stringId ids.strings
  have h₂ := length_mapSection_le .typeId ids.types
  have h₃ := length_mapSection_le .protoId ids.protos
  have h₄ := length_mapSection_le .fieldId ids.fields
  have h₅ := length_mapSection_le .methodId ids.methods
  have h₆ := length_mapSection_le .classDef ids.classes
  have h₇ := length_mapItems_le .codeItem plan.codeOffsets
  have h₈ := length_mapItems_le .typeList plan.listOffsets
  have h₉ := length_mapItems_le .stringData plan.stringOffsets
  have h₁₀ := length_mapItems_le .classData plan.dataOffsets
  simp only [map, List.length_append, List.length_cons, List.length_nil]
  omega

/-- The parts of the data, each placed where the one in front of it ends. -/
theorem exists_plan_of_placeData {tables : Tables} {ids : Sections} {classes : List LinkedClass}
    {r r' : DataRegion} {draft : Draft} (h : placeData tables ids classes r = .ok (draft, r')) :
    ∃ (plan : DataPlan) (s₁ s₂ s₃ s₄ s₅ : DataRegion), plan.draft tables classes = draft ∧
      classes.mapM (placeMethods tables) r = .ok (plan.declared, s₁) ∧
      (collectTypeLists (tables.protos.entries.toList.map ProtoRow.params ++
        classes.map LinkedClass.interfaces)).entries.toList.mapM
          (fun types => alignedItem .typeList (encodeTypeList types)) s₁ =
        .ok (plan.listOffsets, s₂) ∧
      tables.strings.entries.toList.mapM (fun text => item .stringData (encodeText text)) s₂ =
        .ok (plan.stringOffsets, s₃) ∧
      plan.data.mapM (fun d => item .classData d.encode) s₃ = .ok (plan.dataOffsets, s₄) ∧
      align s₄ = .ok ((), s₅) ∧ plan.mapOffset.toNat = s₅.stop ∧
      append (encodeMap (plan.map ids)) s₅ = .ok ((), r') := by
  obtain ⟨declared, s₁, hDeclared, h⟩ := bind_eq_ok_iff.mp h
  obtain ⟨listOffsets, s₂, hLists, h⟩ := bind_eq_ok_iff.mp h
  obtain ⟨stringOffsets, s₃, hStrings, h⟩ := bind_eq_ok_iff.mp h
  obtain ⟨dataOffsets, s₄, hData, h⟩ := bind_eq_ok_iff.mp h
  obtain ⟨_, s₅, hAlign, h⟩ := bind_eq_ok_iff.mp h
  obtain ⟨mapOffset, _, hMap, h⟩ := bind_eq_ok_iff.mp h
  obtain ⟨hMapOffset, rfl⟩ := here_eq_ok hMap
  obtain ⟨_, s₆, hAppend, h⟩ := bind_eq_ok_iff.mp h
  obtain ⟨hDraft, rfl⟩ := pure_eq_ok_iff.mp h
  exact ⟨⟨declared, listOffsets, stringOffsets, dataOffsets, mapOffset⟩, s₁, s₂, s₃, s₄, s₅, hDraft,
    hDeclared, hLists, hStrings, hData, hAlign, hMapOffset, hAppend⟩

theorem mapM_item_eq_ok {α : Type} {place : List UInt8 → Placing UInt32} {encode : α → List UInt8}
    (hPlace : ∀ {part r o r'}, place part r = .ok (o, r') → Appended r r' o part) {items : List α}
    {r r' : DataRegion} {offsets : List UInt32}
    (h : items.mapM (fun item => place (encode item)) r = .ok (offsets, r')) :
    r.Extends r' ∧
      List.Forall₂ (fun item offset => r'.Holds offset.toNat (encode item)) items offsets :=
  mapM_eq_ok (P := fun r item (offset : UInt32) => r.Holds offset.toNat (encode item))
    (fun hExtends hHolds => hHolds.mono hExtends)
    (fun _ _ _ _ _ hStep => ⟨(hPlace hStep).extended, (hPlace hStep).holds⟩) h

theorem placeData_eq_ok {tables : Tables} {ids : Sections} {classes : List LinkedClass}
    {r r' : DataRegion} {draft : Draft} (h : placeData tables ids classes r = .ok (draft, r')) :
    r.Extends r' ∧ Laid tables classes r' draft := by
  obtain ⟨plan, s₁, s₂, s₃, s₄, s₅, rfl, hDeclared, hLists, hStrings, hData, hAlign, hMapOffset,
    hAppend⟩ := exists_plan_of_placeData h
  obtain ⟨h₅, -⟩ := align_eq_ok hAlign
  obtain ⟨h₆, hMapHolds, -⟩ := append_eq_ok hAppend
  obtain ⟨h₁, hDeclared⟩ := mapM_eq_ok (P := fun r c d =>
      StoresMembers tables c d ∧ ∀ m ∈ d.methods, CodePlaced r m)
    (fun hExtends hP => ⟨hP.1, fun m hm => (hP.2 m hm).mono hExtends⟩)
    (fun _ _ _ _ _ hStep => placeMethods_eq_ok hStep) hDeclared
  obtain ⟨h₂, hLists⟩ := mapM_item_eq_ok (fun hStep => (alignedItem_eq_ok hStep).1) hLists
  obtain ⟨h₃, hStrings⟩ := mapM_item_eq_ok (fun hStep => (item_eq_ok hStep).1) hStrings
  obtain ⟨h₄, hData⟩ := mapM_item_eq_ok (fun hStep => (item_eq_ok hStep).1) hData
  have hFromData := h₅.trans h₆
  have hFromStrings := h₄.trans hFromData
  have hFromLists := h₃.trans hFromStrings
  have hFromCode := h₂.trans hFromLists
  have hPlaced : ∀ {types}, types ∈ tables.protos.entries.toList.map ProtoRow.params ++
      classes.map LinkedClass.interfaces → _ :=
    fun hTypes => (typeListOffset_placed hLists hTypes).mono hFromLists
  refine ⟨h₁.trans hFromCode, ?_, ?_, ?_, ?_⟩
  · rw [DataPlan.draft, List.forall₂_map_right_iff, List.forall₂_same]
    intro row hRow
    exact ⟨rfl, hPlaced (List.mem_append_left _ (List.mem_map_of_mem hRow))⟩
  · have hSorted : List.Forall₂ (fun c data => c ∈ classes ∧ ∃ d, StoresMembers tables c d ∧
        (∀ m ∈ d.methods, CodePlaced s₁ m) ∧ data = sortMembers d)
        classes plan.data := by
      rw [DataPlan.data, List.forall₂_and_left, List.forall₂_map_right_iff]
      exact ⟨fun _ hc => hc, hDeclared.imp fun _ d hP => ⟨d, hP.1, hP.2, rfl⟩⟩
    refine Pairing.zip_map hSorted hData ?_
    rintro c data offset ⟨hc, d, hMembers, hCode, rfl⟩ hHolds
    refine ⟨⟨rfl, rfl, rfl, rfl, rfl, d, _, hMembers, sortMembers_sorts d, rfl⟩, ?_, _, rfl, ?_, ?_⟩
    · exact hPlaced (List.mem_append_right _ (List.mem_map_of_mem hc))
    · exact hHolds.mono hFromData
    · intro m hm
      exact (hCode m ((sortMembers_sorts d).mem_methods hm)).mono hFromCode
  · exact hStrings.imp fun _ _ hHolds => hHolds.mono hFromStrings
  · rw [← hMapOffset] at hMapHolds
    exact ⟨_, Nat.lt_of_le_of_lt (plan.length_map_le ids) (by decide), hMapHolds⟩

end DexForge.Image
