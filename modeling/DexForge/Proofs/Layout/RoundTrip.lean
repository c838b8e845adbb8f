import DexForge.Proofs.Container.Loading
import DexForge.Proofs.Layout.Placement

/-! # The reader undoes the writer

A written file consists of its sealed header, the id sections and the data region. Each section is
where the header tells, and each offset in a section leads into the data region.
-/
set_option autoImplicit false

namespace DexForge

open LittleEndian

theorem length_flatMap_of_width {α : Type} {f : α → List UInt8} {width : Nat}
    (h : ∀ x, (f x).length = width) (xs : List α) : (xs.flatMap f).length = width * xs.length := by
  induction xs with
  | nil => rfl
  | cons x xs ih => rw [List.flatMap_cons, List.length_append, h, ih, List.length_cons, Nat.mul_succ,
      Nat.add_comm]

theorem length_le_encodeText (text : String) : Utf16.length text ≤ (encodeText text).length := by
  have hUnits := Mutf8.length_le_encode text
  simp only [encodeText, List.length_append]
  omega

theorem length_encode_protoId (p : ProtoId) : p.encode.length = 12 := rfl

theorem length_encode_memberId (m : MemberId) : m.encode.length = 8 := rfl

theorem length_encode_classDef (d : ClassDef) : d.encode.length = 32 := by
  rw [ClassDef.encode, length_flatMap_of_width length_ofUInt32]
  rfl

theorem ClassData.length_le_encode (d : ClassData) :
    d.staticFields.length ≤ d.encode.length ∧ d.instanceFields.length ≤ d.encode.length ∧
      d.directMethods.length ≤ d.encode.length ∧ d.virtualMethods.length ≤ d.encode.length := by
  have hFields : ∀ fields : List FieldEntry, fields.length ≤ (encodeFields fields).length := by
    intro fields
    refine Nat.le_trans ?_ (length_le_flatMap (fun pair => ?_) _)
    · simp
    · simp [encodeField, Uleb128.encode_ne_nil]
  have hMethods : ∀ methods : List MethodEntry, methods.length ≤ (encodeMethods methods).length := by
    intro methods
    refine Nat.le_trans ?_ (length_le_flatMap (fun pair => ?_) _)
    · simp
    · simp [encodeMethod, Uleb128.encode_ne_nil]
  have h₁ := hFields d.staticFields
  have h₂ := hFields d.instanceFields
  have h₃ := hMethods d.directMethods
  have h₄ := hMethods d.virtualMethods
  simp only [encode, List.length_append]
  omega

namespace Image

/-- The tables as they were finished, the prototypes and classes as they were laid out, the sealed
header and the map list. -/
def Draft.container (tables : Tables) (classes : List LinkedClass) (draft : Draft) (bytes : Bytes)
    (region : DataRegion) (fileSize : UInt32) (items : Array MapItem) : Container where
  bytes := bytes
  header := Seal.sealedHeader (header (sections tables classes.length) draft.mapOffset fileSize)
    (idBytes tables draft ++ region.bytes.toList)
  strings := tables.strings.entries
  types := tables.types.entries
  protos := draft.protos.toArray
  fields := tables.fields.entries
  methods := tables.methods.entries
  classes := draft.classes.toArray
  map := items

/-- The file is its sealed header, the id sections and the data region. -/
structure Written (tables : Tables) (classes : List LinkedClass) (bytes : Bytes) (draft : Draft)
    (region : DataRegion) (fileSize : UInt32) : Prop where
  placed : placeData tables (sections tables classes.length) classes
    ⟨(sections tables classes.length).stop, #[]⟩ = .ok (draft, region)
  laid : Laid tables classes region draft
  base : region.base = (sections tables classes.length).stop
  stop : region.stop = fileSize.toNat
  bytes : bytes = Seal.stamp ((header (sections tables classes.length) draft.mapOffset
    fileSize).encode ++ (idBytes tables draft ++ region.bytes.toList)).toArray

theorem write_eq_ok {tables : Tables} {classes : List ClassDefinition} {bytes : Bytes}
    (h : write tables classes = .ok bytes) :
    ∃ linked ordered draft region fileSize, classes.mapM tables.link = .ok linked ∧
      ClassOrder.arrange linked = .ok ordered ∧
      Written tables ordered bytes draft region fileSize := by
  obtain ⟨linked, hLinked, h⟩ := Except.bind_eq_ok_iff.mp h
  obtain ⟨ordered, hOrdered, h⟩ := Except.bind_eq_ok_iff.mp h
  obtain ⟨⟨draft, region⟩, hData, h⟩ := Except.bind_eq_ok_iff.mp h
  obtain ⟨fileSize, hSize, h⟩ := Except.bind_eq_ok_iff.mp h
  rw [Except.pure_eq_ok_iff] at h
  obtain ⟨hExtends, hLaid⟩ := placeData_eq_ok hData
  refine ⟨linked, ordered, draft, region, fileSize, hLinked, hOrdered, hData, hLaid, hExtends.base,
    (Placing.offset32_eq_ok hSize).symm, ?_⟩
  rw [← h, ← List.append_assoc]
  congr 1
  apply Array.toList_inj.mp
  simp

theorem stop_sections (tables : Tables) (classCount : Nat) :
    (sections tables classCount).stop = headerSize + 4 * tables.strings.size +
      4 * tables.types.size + 12 * tables.protos.size + 8 * tables.fields.size +
      8 * tables.methods.size + 32 * classCount := rfl

theorem table_sectionAt {α : Type} {read : Nat → Loader.Load α} {stride offset : Nat} {xs : List α}
    (hOffset : offset < 0x100000000) (hLength : xs.length < 0x100000000)
    (h : ∀ k x, xs[k]? = some x → read (offset + k * stride) = .ok x) :
    Loader.table (sectionAt offset xs.length) stride read = .ok xs.toArray := by
  unfold sectionAt
  split
  · next hEmpty =>
    rw [List.length_eq_zero_iff] at hEmpty
    subst hEmpty
    rfl
  · refine Loader.table_eq_ok (UInt32.toNat_ofNat_of_lt hLength) ?_
    have hStart : (UInt32.ofNat offset).toNat = offset := UInt32.toNat_ofNat_of_lt hOffset
    intro k x hk
    rw [hStart]
    exact h k x hk

/-- A section of entries of one width is read back entry by entry. -/
theorem table_of_holdsAt {α : Type} {bytes : Bytes} {read : Nat → Loader.Load α}
    {encode : α → List UInt8} {width offset : Nat} {entries : Array α}
    (hWidth : ∀ a, (encode a).length = width)
    (hRead : ∀ {start a}, HoldsAt bytes start (encode a) → read start = .ok a)
    (h : HoldsAt bytes offset (entries.toList.flatMap encode)) (hOffset : offset < 0x100000000)
    (hSize : entries.size < 0x100000000) :
    Loader.table (sectionAt offset entries.size) width read = .ok entries := by
  have hTable : Loader.table (sectionAt offset entries.toList.length) width read =
      .ok entries.toList.toArray :=
    table_sectionAt hOffset hSize fun k a hk => hRead (h.flatMap_getElem? (fun x _ => hWidth x) hk)
  exact hTable

namespace Written

variable {tables : Tables} {classes : List LinkedClass} {bytes : Bytes} {draft : Draft}
  {region : DataRegion} {fileSize : UInt32}

theorem length_lists (h : Written tables classes bytes draft region fileSize) :
    draft.stringOffsets.length = tables.strings.size ∧ draft.protos.length = tables.protos.size ∧
      draft.classes.length = classes.length := by
  refine ⟨?_, ?_, h.laid.classes.length_eq.symm⟩
  · rw [← h.laid.strings.length_eq, Array.length_toList, Ranked.size]
  · rw [← h.laid.protos.length_eq, Array.length_toList, Ranked.size]

theorem toList_bytes (h : Written tables classes bytes draft region fileSize) :
    ∃ sealed : Header, bytes.toList = sealed.encode ++ (idBytes tables draft ++ region.bytes.toList) ∧
      sealed = Seal.sealedHeader (header (sections tables classes.length) draft.mapOffset fileSize)
        (idBytes tables draft ++ region.bytes.toList) := by
  refine ⟨_, ?_, rfl⟩
  rw [h.bytes, Seal.toList_stamp]

theorem holdsAt_sections (h : Written tables classes bytes draft region fileSize) :
    HoldsAt bytes headerSize (draft.stringOffsets.flatMap ofUInt32) ∧
      HoldsAt bytes (headerSize + 4 * tables.strings.size)
        (tables.types.entries.toList.flatMap ofUInt32) ∧
      HoldsAt bytes (headerSize + 4 * tables.strings.size + 4 * tables.types.size)
        (draft.protos.flatMap ProtoId.encode) ∧
      HoldsAt bytes (headerSize + 4 * tables.strings.size + 4 * tables.types.size +
        12 * tables.protos.size) (tables.fields.entries.toList.flatMap MemberId.encode) ∧
      HoldsAt bytes (headerSize + 4 * tables.strings.size + 4 * tables.types.size +
        12 * tables.protos.size + 8 * tables.fields.size)
        (tables.methods.entries.toList.flatMap MemberId.encode) ∧
      HoldsAt bytes (headerSize + 4 * tables.strings.size + 4 * tables.types.size +
        12 * tables.protos.size + 8 * tables.fields.size + 8 * tables.methods.size)
        (draft.classes.flatMap ClassDef.encode) := by
  obtain ⟨sealed, hBytes, -⟩ := h.toList_bytes
  obtain ⟨hStrings, hProtos, -⟩ := h.length_lists
  have hIds : HoldsAt bytes headerSize (idBytes tables draft) := by
    rw [← Header.length_encode sealed]
    exact HoldsAt.of_split (by rw [hBytes, List.append_assoc])
  rw [idBytes] at hIds
  have hClasses := hIds.right
  have hMethods := hIds.left.right
  have hFields := hIds.left.left.right
  have hProtoIds := hIds.left.left.left.right
  have hTypes := hIds.left.left.left.left.right
  have hOffsets := hIds.left.left.left.left.left
  simp only [List.length_append, length_flatMap_of_width length_ofUInt32,
    length_flatMap_of_width length_encode_protoId, length_flatMap_of_width length_encode_memberId,
    hStrings, hProtos, Array.length_toList, Ranked.size, ← Nat.add_assoc]
    at hTypes hProtoIds hFields hMethods hClasses ⊢
  exact ⟨hOffsets, hTypes, hProtoIds, hFields, hMethods, hClasses⟩

theorem length_idBytes (h : Written tables classes bytes draft region fileSize) :
    headerSize + (idBytes tables draft).length = region.base := by
  obtain ⟨hStrings, hProtos, hClasses⟩ := h.length_lists
  rw [h.base, stop_sections, idBytes]
  simp only [List.length_append, length_flatMap_of_width length_ofUInt32,
    length_flatMap_of_width length_encode_protoId, length_flatMap_of_width length_encode_memberId,
    length_flatMap_of_width length_encode_classDef,
    hStrings, hProtos, hClasses, Array.length_toList, Ranked.size]
  omega

theorem size_bytes (h : Written tables classes bytes draft region fileSize) :
    bytes.size = fileSize.toNat := by
  obtain ⟨sealed, hBytes, -⟩ := h.toList_bytes
  have hLength := congrArg List.length hBytes
  have hIds := h.length_idBytes
  simp only [List.length_append, Header.length_encode, Array.length_toList] at hLength
  rw [hLength, ← h.stop, DataRegion.stop, ← hIds, Nat.add_assoc]

/-- The size of the data section is no difference below zero. -/
theorem stop_data (h : Written tables classes bytes draft region fileSize) (mapOffset : UInt32) :
    (header (sections tables classes.length) mapOffset fileSize).data.offset.toNat +
      (header (sections tables classes.length) mapOffset fileSize).data.size.toNat =
        bytes.size := by
  have hSize := fileSize.toNat_lt
  have hStop : region.base ≤ region.stop := Nat.le_add_right _ _
  rw [h.stop, h.base] at hStop
  have hOffset : (UInt32.ofNat (sections tables classes.length).stop).toNat =
      (sections tables classes.length).stop :=
    UInt32.toNat_ofNat_of_lt (Nat.lt_of_le_of_lt hStop hSize)
  have hLe : UInt32.ofNat (sections tables classes.length).stop ≤ fileSize := by
    rw [UInt32.le_iff_toNat_le, hOffset]
    exact hStop
  rw [h.size_bytes]
  simp only [header]
  rw [UInt32.toNat_sub_of_le _ _ hLe, hOffset]
  omega

theorem holdsAt_of_holds (h : Written tables classes bytes draft region fileSize) {offset : Nat}
    {part : List UInt8} (hHolds : region.Holds offset part) : HoldsAt bytes offset part := by
  obtain ⟨sealed, hBytes, -⟩ := h.toList_bytes
  rw [← List.append_assoc] at hBytes
  refine hHolds.holdsAt_file hBytes ?_
  rw [List.length_append, Header.length_encode, h.length_idBytes]

theorem ne_zero_of_holds (h : Written tables classes bytes draft region fileSize) {offset : UInt32}
    {part : List UInt8} (hHolds : region.Holds offset.toNat part) : offset ≠ 0 := by
  rintro rfl
  have hBase := hHolds.base_le
  rw [← h.length_idBytes, headerSize, UInt32.toNat_zero] at hBase
  omega

theorem length_lt_of_holds (h : Written tables classes bytes draft region fileSize) {offset : Nat}
    {part : List UInt8} (hHolds : region.Holds offset part) : part.length < 0x100000000 := by
  have hStop := hHolds.stop_le
  have hSize := fileSize.toNat_lt
  rw [h.stop] at hStop
  omega

theorem typeList_eq_ok (h : Written tables classes bytes draft region fileSize)
    {types : List UInt16} {offset : UInt32} (hPlaced : TypeListPlaced region types offset) :
    Loader.typeList bytes offset = .ok types := by
  obtain ⟨rfl, rfl⟩ | hHolds := hPlaced
  · rfl
  · have hLength := h.length_lt_of_holds hHolds
    refine Loader.typeList_of_holdsAt (h.ne_zero_of_holds hHolds) ?_ (h.holdsAt_of_holds hHolds)
    simp only [encodeTypeList, List.length_append, Loader.length_flatMap_ofUInt16] at hLength
    omega

theorem codeItem_eq_ok (h : Written tables classes bytes draft region fileSize) {m : MethodEntry}
    (hPlaced : CodePlaced region m) : m.codeOffset ≠ 0 ∧
      ∃ code, m.code = some code ∧ Loader.codeItem bytes m.codeOffset = .ok code := by
  obtain ⟨code, hSome, hOffset, hUnits, hHolds⟩ := hPlaced
  rw [← hOffset]
  exact ⟨h.ne_zero_of_holds hHolds, code, hSome,
    Loader.codeItem_of_holdsAt hUnits (h.holdsAt_of_holds hHolds)⟩

theorem classDef_eq_ok (h : Written tables classes bytes draft region fileSize) {d : ClassDef}
    {offset : Nat} (hPlaced : ClassPlaced region d) (hHolds : HoldsAt bytes offset d.encode) :
    Loader.classDef bytes offset = .ok d := by
  obtain ⟨data, hSome, hData, hCode⟩ := hPlaced.data
  have hLength := h.length_lt_of_holds hData
  obtain ⟨hStatic, hInstance, hDirect, hVirtual⟩ := data.length_le_encode
  refine Loader.classDef_of_holdsAt hHolds (h.typeList_eq_ok hPlaced.interfaces)
    (h.ne_zero_of_holds hData) hSome ?_
  exact Loader.classData_of_holdsAt (by omega) (by omega) (by omega) (by omega)
    (fun m hm => h.codeItem_eq_ok (hCode m hm)) (h.holdsAt_of_holds hData)

/-- Counts and starts of all sections have 32 bits, because the whole file does. -/
theorem stop_lt (h : Written tables classes bytes draft region fileSize) :
    headerSize + 4 * tables.strings.entries.size + 4 * tables.types.entries.size +
      12 * tables.protos.entries.size + 8 * tables.fields.entries.size +
      8 * tables.methods.entries.size + 32 * classes.length < 0x100000000 := by
  have hSize := fileSize.toNat_lt
  have hStop : region.base ≤ region.stop := Nat.le_add_right _ _
  rw [h.stop, h.base, stop_sections] at hStop
  simp only [Ranked.size] at hStop
  omega

theorem strings_eq_ok (h : Written tables classes bytes draft region fileSize) :
    Loader.table (sections tables classes.length).strings 4 (Loader.stringId bytes) =
      .ok tables.strings.entries := by
  have hBound := h.stop_lt
  have hTable : Loader.table (sectionAt headerSize tables.strings.entries.toList.length) 4
      (Loader.stringId bytes) = .ok tables.strings.entries.toList.toArray := by
    refine table_sectionAt (by decide) (by rw [Array.length_toList]; omega) ?_
    intro k text hk
    obtain ⟨offset, hOffset, hHolds⟩ := Pairing.getElem?_left h.laid.strings hk
    have hLength := h.length_lt_of_holds hHolds
    refine Loader.stringId_of_holdsAt ?_
      (HoldsAt.flatMap_getElem? (fun _ _ => length_ofUInt32 _) h.holdsAt_sections.1 hOffset)
      (h.holdsAt_of_holds hHolds)
    exact Nat.lt_of_le_of_lt (length_le_encodeText text) hLength
  exact hTable

theorem types_eq_ok (h : Written tables classes bytes draft region fileSize) :
    Loader.table (sections tables classes.length).types 4 (Loader.uint32 bytes .typeId) =
      .ok tables.types.entries := by
  have hBound := h.stop_lt
  exact table_of_holdsAt length_ofUInt32 (fun hWord => Loader.uint32_of_holdsAt hWord _)
    h.holdsAt_sections.2.1 (by simp only [Ranked.size]; omega) (by omega)

theorem protos_eq_ok (h : Written tables classes bytes draft region fileSize) :
    Loader.table (sections tables classes.length).protos 12 (Loader.protoId bytes) =
      .ok draft.protos.toArray := by
  have hBound := h.stop_lt
  obtain ⟨-, hCount, -⟩ := h.length_lists
  rw [sections, ← hCount]
  rw [Ranked.size] at hCount
  refine table_sectionAt (by rw [Ranked.size, Ranked.size]; omega) (by omega) ?_
  intro k p hk
  obtain ⟨row, -, hRow, hPlaced⟩ := Pairing.getElem?_right h.laid.protos hk
  refine Loader.protoId_of_holdsAt
    (HoldsAt.flatMap_getElem? (fun _ _ => length_encode_protoId _) h.holdsAt_sections.2.2.1 hk) ?_
  rw [h.typeList_eq_ok hPlaced, hRow, protoId]

theorem fields_eq_ok (h : Written tables classes bytes draft region fileSize) :
    Loader.table (sections tables classes.length).fields 8 (Loader.memberId bytes .fieldId) =
      .ok tables.fields.entries := by
  have hBound := h.stop_lt
  exact table_of_holdsAt length_encode_memberId (Loader.memberId_of_holdsAt _)
    h.holdsAt_sections.2.2.2.1 (by simp only [Ranked.size]; omega) (by omega)

theorem methods_eq_ok (h : Written tables classes bytes draft region fileSize) :
    Loader.table (sections tables classes.length).methods 8 (Loader.memberId bytes .methodId) =
      .ok tables.methods.entries := by
  have hBound := h.stop_lt
  exact table_of_holdsAt length_encode_memberId (Loader.memberId_of_holdsAt _)
    h.holdsAt_sections.2.2.2.2.1 (by simp only [Ranked.size]; omega) (by omega)

theorem classes_eq_ok (h : Written tables classes bytes draft region fileSize) :
    Loader.table (sections tables classes.length).classes 32 (Loader.classDef bytes) =
      .ok draft.classes.toArray := by
  have hBound := h.stop_lt
  obtain ⟨-, -, hCount⟩ := h.length_lists
  rw [sections, ← hCount]
  refine table_sectionAt ?_ (by omega) ?_
  · simp only [Ranked.size]
    omega
  · intro k d hk
    obtain ⟨c, -, -, hPlaced⟩ := Pairing.getElem?_right h.laid.classes hk
    exact h.classDef_eq_ok hPlaced (HoldsAt.flatMap_getElem?
      (fun _ _ => length_encode_classDef _) h.holdsAt_sections.2.2.2.2.2 hk)

theorem map_eq_ok (h : Written tables classes bytes draft region fileSize) :
    ∃ items, Loader.mapList bytes draft.mapOffset = .ok items := by
  obtain ⟨items, hItems, hHolds⟩ := h.laid.map
  exact ⟨items.toArray, Loader.mapList_of_holdsAt (h.ne_zero_of_holds hHolds) hItems
    (h.holdsAt_of_holds hHolds)⟩

theorem checkedHeader_eq_ok (h : Written tables classes bytes draft region fileSize) :
    Loader.checkedHeader bytes = .ok (Seal.sealedHeader (header (sections tables classes.length)
      draft.mapOffset fileSize) (idBytes tables draft ++ region.bytes.toList)) := by
  rw [h.bytes]
  refine Loader.checkedHeader_stamp rfl rfl ?_
  have hStop := h.stop
  have hBase := h.length_idBytes
  rw [DataRegion.stop, ← Array.length_toList] at hStop
  change fileSize.toNat = _
  rw [List.length_append, ← Nat.add_assoc, hBase, hStop]

theorem load_of_mapList (h : Written tables classes bytes draft region fileSize)
    {items : Array MapItem} (hItems : Loader.mapList bytes draft.mapOffset = .ok items) :
    Container.load bytes = .ok (draft.container tables classes bytes region fileSize items) := by
  rw [Container.load, h.checkedHeader_eq_ok]
  simp only [Except.ok_bind, Seal.sealedHeader, Header.withSeal_stringIds, Header.withSeal_typeIds,
    Header.withSeal_protoIds, Header.withSeal_fieldIds, Header.withSeal_methodIds,
    Header.withSeal_classDefs, Header.withSeal_mapOffset, header, h.strings_eq_ok, h.types_eq_ok,
    h.protos_eq_ok, h.fields_eq_ok, h.methods_eq_ok, h.classes_eq_ok, hItems]
  rfl

theorem load_eq_ok (h : Written tables classes bytes draft region fileSize) :
    ∃ items, Container.load bytes =
      .ok (draft.container tables classes bytes region fileSize items) := by
  obtain ⟨items, hItems⟩ := h.map_eq_ok
  exact ⟨items, h.load_of_mapList hItems⟩

end Written

end Image

end DexForge
