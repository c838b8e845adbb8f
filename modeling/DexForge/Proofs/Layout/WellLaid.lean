import DexForge.Proofs.Layout.DataPlan

/-! # Written files are well laid

A file is written by a plan of its data region. The container that is read back from it has its
items where the plan put them, and the map list that the plan drew up names them.
-/
set_option autoImplicit false

namespace DexForge

namespace Image

open Placing LittleEndian Piece

theorem sectionAt_toNat {offset count : Nat} (hOffset : offset < 0x100000000)
    (hCount : count < 0x100000000) :
    (sectionAt offset count).size.toNat = count ∧
      (sectionAt offset count).offset.toNat = if count = 0 then 0 else offset := by
  unfold sectionAt
  split
  · next hEmpty => exact ⟨hEmpty.symm, rfl⟩
  · exact ⟨UInt32.toNat_ofNat_of_lt hCount, UInt32.toNat_ofNat_of_lt hOffset⟩

section Rows

variable {α : Type} {offset width : Nat} {encode : α → List UInt8} {entries : List α}
  (hOffset : offset < 0x100000000) (hCount : entries.length < 0x100000000)
include hOffset hCount

theorem pieceRow_sectionAt :
    pieceRow (sectionAt offset entries.length).offset.toNat width encode entries =
      pieceRow offset width encode entries := by
  rw [(sectionAt_toNat hOffset hCount).2]
  cases entries with
  | nil => rfl
  | cons a rest => rfl

theorem view_mapSection (hWidth : ∀ a, (encode a).length = width) (kind : ItemKind) :
    (mapSection kind (sectionAt offset entries.length)).map MapItem.view =
      (summary? kind (pieceRow offset width encode entries)).toList := by
  have hSize := (sectionAt_toNat hOffset hCount).1
  have hStart := (sectionAt_toNat hOffset hCount).2
  rw [(inOrder_pieceRow hWidth).summary?, mapSection]
  cases entries with
  | nil => rfl
  | cons a rest =>
    rw [if_neg (by rw [← UInt32.toNat_inj, hSize]; simp)]
    simp only [List.map_cons, List.map_nil, MapItem.view, hSize, hStart]
    simp [pieceRow]

end Rows

theorem view_mapItems {kind : ItemKind} {offsets : List UInt32} {start stop : Nat}
    {ps : List Piece} (hOffsets : ps.map Piece.offset = offsets.map UInt32.toNat)
    (hOrder : InOrder start ps stop) (hCount : ps.length < 0x100000000) :
    (mapItems kind offsets).map MapItem.view = (summary? kind ps).toList := by
  have hLength : ps.length = offsets.length := by simpa using congrArg List.length hOffsets
  rw [hLength] at hCount
  have hSize : (UInt32.ofNat offsets.length).toNat = offsets.length :=
    UInt32.toNat_ofNat_of_lt hCount
  rw [hOrder.summary?]
  cases ps with
  | nil =>
    cases offsets with
    | nil => rfl
    | cons o offsets => cases hOffsets
  | cons p ps =>
    cases offsets with
    | nil => cases hOffsets
    | cons o offsets =>
      rw [List.map_cons, List.map_cons, List.cons.injEq] at hOffsets
      simp only [mapItems, List.map_cons, List.map_nil, MapItem.view, hSize, List.head?_cons,
        Option.map_some, Option.toList_some, hLength, hOffsets.1]

namespace DataPlan

def container (tables : Tables) (classes : List LinkedClass) (plan : DataPlan) (bytes : Bytes)
    (region : DataRegion) (fileSize : UInt32) : Container where
  bytes := bytes
  header := Seal.sealedHeader (header (sections tables classes.length) plan.mapOffset fileSize)
    (idBytes tables (plan.draft tables classes) ++ region.bytes.toList)
  strings := tables.strings.entries
  types := tables.types.entries
  protos := (plan.draft tables classes).protos.toArray
  fields := tables.fields.entries
  methods := tables.methods.entries
  classes := (plan.draft tables classes).classes.toArray
  map := (plan.map (sections tables classes.length)).toArray

/-- The items of each kind in the order in which the file has them. -/
def sorted (tables : Tables) (classes : List LinkedClass) (plan : DataPlan) (c : Container) :
    ItemKind → List Piece
  | .codeItem => plan.codePieces
  | .typeList => plan.listPieces tables classes
  | .stringData => plan.stringPieces tables
  | .classData => plan.dataPieces
  | kind => c.pieces kind

end DataPlan

structure Planned (tables : Tables) (classes : List LinkedClass) (plan : DataPlan) (bytes : Bytes)
    (region : DataRegion) (fileSize : UInt32) : Prop where
  written : Written tables classes bytes (plan.draft tables classes) region fileSize
  carriedOut : plan.CarriedOut tables (sections tables classes.length) classes
    ⟨(sections tables classes.length).stop, #[]⟩ region

theorem Written.exists_planned {tables : Tables} {classes : List LinkedClass} {bytes : Bytes}
    {draft : Draft} {region : DataRegion} {fileSize : UInt32}
    (h : Written tables classes bytes draft region fileSize) :
    ∃ plan, Planned tables classes plan bytes region fileSize := by
  obtain ⟨plan, rfl, hPlan⟩ := exists_plan h.placed
  exact ⟨plan, h, hPlan⟩

namespace Planned

variable {tables : Tables} {classes : List LinkedClass} {plan : DataPlan} {bytes : Bytes}
  {region : DataRegion} {fileSize : UInt32}

theorem load_eq_ok (h : Planned tables classes plan bytes region fileSize) :
    Container.load bytes = .ok (plan.container tables classes bytes region fileSize) := by
  apply h.written.load_of_mapList
  have hHolds := h.carriedOut.fills.holds _ (List.mem_append_right _ (List.mem_singleton_self _))
  refine Loader.mapList_of_holdsAt (h.written.ne_zero_of_holds hHolds) ?_
    (h.written.holdsAt_of_holds hHolds)
  exact Nat.lt_of_le_of_lt (plan.length_map_le _) (by decide)

theorem stringOffsets_eq (h : Planned tables classes plan bytes region fileSize) :
    (plan.container tables classes bytes region fileSize).stringOffsets = plan.stringOffsets := by
  have hLength := h.carriedOut.stringOffsets_length
  have hCount : (sections tables classes.length).strings.offset.toNat =
      if tables.strings.entries.size = 0 then 0 else headerSize := by
    have hBound := h.written.stop_lt
    refine (sectionAt_toNat (by decide) ?_).2
    rw [Ranked.size]
    omega
  rw [Array.length_toList] at hLength
  apply List.ext_getElem
  · simp [Container.stringOffsets, DataPlan.container, hLength]
  · intro i hi hi'
    have hNonempty : tables.strings.entries.size ≠ 0 := by omega
    rw [if_neg hNonempty] at hCount
    have hWord := uint32At?_of_holdsAt (h.written.holdsAt_sections.1.flatMap_getElem?
      (fun _ _ => length_ofUInt32 _) (List.getElem?_eq_getElem hi'))
    simp only [Container.stringOffsets, List.getElem_map, List.getElem_range]
    change (uint32At? bytes ((sections tables classes.length).strings.offset.toNat + i * 4)).getD 0 =
      plan.stringOffsets[i]
    rw [hCount, hWord]
    rfl

theorem length_data (h : Planned tables classes plan bytes region fileSize) :
    (plan.data.zip plan.dataOffsets).length = classes.length := by
  rw [List.length_zip, h.carriedOut.dataOffsets_length, Nat.min_self, DataPlan.data,
    List.length_map, h.carriedOut.declared_length]

theorem classData_eq (h : Planned tables classes plan bytes region fileSize) :
    (plan.container tables classes bytes region fileSize).classData =
      plan.data.zip plan.dataOffsets := by
  have hRun : (plan.container tables classes bytes region fileSize).classData =
      (classes.zip (plan.data.zip plan.dataOffsets)).map Prod.snd := by
    simp only [Container.classData, DataPlan.container, DataPlan.draft, List.filterMap_map]
    rw [← List.filterMap_eq_map]
    rfl
  rw [hRun, List.map_snd_zip (Nat.le_of_eq h.length_data)]

theorem typeLists_eq (h : Planned tables classes plan bytes region fileSize) :
    (plan.container tables classes bytes region fileSize).typeLists =
      (tables.protos.entries.toList.map ProtoRow.params ++
        classes.map LinkedClass.interfaces).map fun types =>
          (types, plan.typeList tables classes types) := by
  have hClasses : (plan.draft tables classes).classes.map
      (fun d => (d.interfaces, d.interfacesOffset)) =
      ((classes.zip (plan.data.zip plan.dataOffsets)).map Prod.fst).map fun c =>
        (c.interfaces, plan.typeList tables classes c.interfaces) := by
    simp only [DataPlan.draft, List.map_map]
    rfl
  rw [List.map_fst_zip (Nat.le_of_eq h.length_data.symm)] at hClasses
  simp only [Container.typeLists, DataPlan.container, hClasses, List.map_append, List.map_map]
  simp only [DataPlan.draft, List.map_map]
  rfl

theorem mem_storedTypeLists {types : List UInt16} : types ∈ storedTypeLists tables classes ↔
    types ∈ tables.protos.entries.toList.map ProtoRow.params ++
      classes.map LinkedClass.interfaces ∧ types ≠ [] := by
  rw [storedTypeLists, Array.mem_toList_iff, collectTypeLists, mem_collect]
  simp [Catalog.empty]

theorem zip_listOffsets (h : Planned tables classes plan bytes region fileSize) :
    (storedTypeLists tables classes).zip plan.listOffsets =
      (storedTypeLists tables classes).map fun types =>
        (types, plan.typeList tables classes types) := by
  have hLength := h.carriedOut.listOffsets_length
  apply List.ext_getElem
  · rw [List.length_zip, hLength, Nat.min_self, List.length_map]
  · intro i hi hi'
    rw [List.length_map] at hi'
    have hFind : (collectTypeLists (tables.protos.entries.toList.map ProtoRow.params ++
        classes.map LinkedClass.interfaces)).find? (storedTypeLists tables classes)[i] = some i := by
      rw [Catalog.find?_eq_some_iff, Catalog.get?, ← Array.getElem?_toList]
      exact List.getElem?_eq_getElem hi'
    have hOffset : plan.listOffsets.toArray.getD i 0 = plan.listOffsets[i] := by
      simp [hLength, hi']
    rw [List.getElem_zip, List.getElem_map]
    simp only [DataPlan.typeList, typeListOffset, hFind, hOffset]

theorem code_perm (h : Planned tables classes plan bytes region fileSize) :
    ((plan.container tables classes bytes region fileSize).pieces .codeItem).Perm
      plan.codePieces := by
  have hSorted : ∀ d ∈ plan.declared, (sortMembers d).codePieces.Perm d.codePieces := by
    intro d _
    apply List.Perm.flatMap_right
    exact List.Perm.append (List.mergeSort_perm _ _) (List.mergeSort_perm _ _)
  have hRun : (plan.container tables classes bytes region fileSize).pieces .codeItem =
      ((plan.data.zip plan.dataOffsets).map Prod.fst).flatMap ClassData.codePieces := by
    rw [List.flatMap_map, ← h.classData_eq]
    rfl
  rw [hRun, List.map_fst_zip (Nat.le_of_eq h.carriedOut.dataOffsets_length.symm), DataPlan.data,
    List.flatMap_map]
  exact List.Perm.flatMap_left _ hSorted

theorem lists_perm (h : Planned tables classes plan bytes region fileSize) :
    ((plan.container tables classes bytes region fileSize).pieces .typeList).Perm
      (plan.listPieces tables classes) := by
  rw [Container.pieces, DataPlan.listPieces]
  apply List.Perm.map
  rw [h.zip_listOffsets, h.typeLists_eq]
  have hDistinct : ((storedTypeLists tables classes).map fun types =>
      (types, plan.typeList tables classes types)).Nodup :=
    (Catalog.nodup _).map fun _ _ hSame => (Prod.mk.inj hSame).1
  rw [List.perm_ext_iff_of_nodup (List.nodup_dedup _) hDistinct]
  rintro ⟨types, offset⟩
  simp only [List.mem_dedup, List.mem_filter, List.mem_map, mem_storedTypeLists, decide_eq_true_eq,
    Prod.mk.injEq]
  constructor
  · rintro ⟨⟨found, hFound, rfl, rfl⟩, hNonempty⟩
    exact ⟨found, ⟨hFound, hNonempty⟩, rfl, rfl⟩
  · rintro ⟨found, ⟨hFound, hNonempty⟩, rfl, rfl⟩
    exact ⟨⟨found, hFound, rfl, rfl⟩, hNonempty⟩

theorem stringPieces_eq (h : Planned tables classes plan bytes region fileSize) :
    (plan.container tables classes bytes region fileSize).pieces .stringData =
      plan.stringPieces tables := by
  rw [Container.pieces, h.stringOffsets_eq]
  rfl

theorem dataPieces_eq (h : Planned tables classes plan bytes region fileSize) :
    (plan.container tables classes bytes region fileSize).pieces .classData =
      plan.dataPieces := by
  rw [Container.pieces, h.classData_eq]
  rfl

theorem rows_eq (h : Planned tables classes plan bytes region fileSize) :
    let c := plan.container tables classes bytes region fileSize
    c.pieces .stringId = pieceRow headerSize 4 ofUInt32 plan.stringOffsets ∧
      c.pieces .typeId = pieceRow (headerSize + 4 * tables.strings.size) 4 ofUInt32
        tables.types.entries.toList ∧
      c.pieces .protoId = pieceRow (headerSize + 4 * tables.strings.size + 4 * tables.types.size)
        12 ProtoId.encode (plan.draft tables classes).protos ∧
      c.pieces .fieldId = pieceRow (headerSize + 4 * tables.strings.size + 4 * tables.types.size +
        12 * tables.protos.size) 8 MemberId.encode tables.fields.entries.toList ∧
      c.pieces .methodId = pieceRow (headerSize + 4 * tables.strings.size +
        4 * tables.types.size + 12 * tables.protos.size + 8 * tables.fields.size) 8
        MemberId.encode tables.methods.entries.toList ∧
      c.pieces .classDef = pieceRow (headerSize + 4 * tables.strings.size +
        4 * tables.types.size + 12 * tables.protos.size + 8 * tables.fields.size +
        8 * tables.methods.size) 32 ClassDef.encode (plan.draft tables classes).classes := by
  have hBound := h.written.stop_lt
  obtain ⟨hStrings, hProtos, hClasses⟩ := h.written.length_lists
  simp only [Ranked.size] at hBound hStrings hProtos
  have hRow : ∀ {α : Type} {offset count width : Nat} {encode : α → List UInt8} {entries : List α},
      entries.length = count → offset + width * count < 0x100000000 → 0 < width →
        pieceRow (sectionAt offset count).offset.toNat width encode entries =
          pieceRow offset width encode entries := by
    rintro α offset count width encode entries rfl hFits hWidth
    have hCount := Nat.le_mul_of_pos_left entries.length hWidth
    exact pieceRow_sectionAt (by omega) (by omega)
  refine ⟨?_, ?_, ?_, ?_, ?_, ?_⟩
  · rw [Container.pieces, h.stringOffsets_eq]
    exact hRow hStrings (by simp only [Ranked.size]; omega) (by decide)
  · exact hRow rfl (by simp only [Ranked.size]; omega) (by decide)
  · exact hRow hProtos (by simp only [Ranked.size]; omega) (by decide)
  · exact hRow rfl (by simp only [Ranked.size]; omega) (by decide)
  · exact hRow rfl (by simp only [Ranked.size]; omega) (by decide)
  · exact hRow hClasses (by simp only [Ranked.size]; omega) (by decide)

theorem perm_sorted (h : Planned tables classes plan bytes region fileSize) (kind : ItemKind) :
    ((plan.container tables classes bytes region fileSize).pieces kind).Perm
      (plan.sorted tables classes (plan.container tables classes bytes region fileSize) kind) := by
  cases kind with
  | codeItem => exact h.code_perm
  | typeList => exact h.lists_perm
  | stringData => exact .of_eq h.stringPieces_eq
  | classData => exact .of_eq h.dataPieces_eq
  | _ => exact .refl _

/-- From the header to the map list each item ends before the next one starts. -/
theorem inOrder (h : Planned tables classes plan bytes region fileSize) :
    InOrder 0 (ItemKind.fileOrder.flatMap (plan.sorted tables classes
      (plan.container tables classes bytes region fileSize))) bytes.size := by
  obtain ⟨hStrings, hTypes, hProtos, hFields, hMethods, hClasses⟩ := h.rows_eq
  obtain ⟨hStringCount, hProtoCount, hClassCount⟩ := h.written.length_lists
  have hData := h.carriedOut.fills.inOrder
  rw [h.written.stop, ← h.written.size_bytes, List.append_assoc, List.append_assoc,
    List.append_assoc] at hData
  rw [ItemKind.flatMap_fileOrder]
  simp only [List.append_assoc, DataPlan.sorted, hStrings, hTypes, hProtos, hFields, hMethods,
    hClasses]
  have hHead : ∀ header : Header, InOrder 0 [⟨0, header.encode⟩] headerSize := fun header =>
    .singleton (Nat.le_refl 0) (by rw [Piece.stop, Header.length_encode, Nat.zero_add])
  apply (hHead _).append
  apply inOrder_pieceRow_append length_ofUInt32 hStringCount
  apply inOrder_pieceRow_append length_ofUInt32 rfl
  apply inOrder_pieceRow_append length_encode_protoId hProtoCount
  apply inOrder_pieceRow_append length_encode_memberId rfl
  apply inOrder_pieceRow_append length_encode_memberId rfl
  apply inOrder_pieceRow_append length_encode_classDef hClassCount
  exact hData

theorem inOrder_kind (h : Planned tables classes plan bytes region fileSize) (kind : ItemKind) :
    InOrder 0 (plan.sorted tables classes (plan.container tables classes bytes region fileSize) kind)
      bytes.size := by
  apply h.inOrder.sublist
  rw [List.flatMap_def]
  exact List.sublist_flatten_of_mem (List.mem_map_of_mem kind.mem_fileOrder)

theorem count_lt (h : Planned tables classes plan bytes region fileSize) (kind : ItemKind) :
    (plan.sorted tables classes (plan.container tables classes bytes region fileSize)
      kind).length < 0x100000000 := by
  -- each item has a byte of its own, and the file has fewer than that many
  have hCount := (h.inOrder_kind kind).length_le fun p hp =>
    Container.bytes_ne_nil p ((h.perm_sorted kind).mem_iff.mpr hp)
  have hSize := fileSize.toNat_lt
  rw [h.written.size_bytes] at hCount
  omega

theorem mem_data (h : Planned tables classes plan bytes region fileSize) {kind : ItemKind}
    (hKind : kind ∈ ItemKind.dataOrder) {p : Piece}
    (hp : p ∈ (plan.container tables classes bytes region fileSize).pieces kind) :
    p ∈ plan.codePieces ++ plan.listPieces tables classes ++ plan.stringPieces tables ++
      plan.dataPieces ++ [plan.mapPiece (sections tables classes.length)] := by
  have hSorted := (h.perm_sorted kind).mem_iff.mp hp
  simp only [ItemKind.dataOrder, List.mem_cons, List.not_mem_nil, or_false] at hKind
  simp only [List.mem_append]
  rcases hKind with rfl | rfl | rfl | rfl | rfl
  · exact Or.inl (Or.inl (Or.inl (Or.inl hSorted)))
  · exact Or.inl (Or.inl (Or.inl (Or.inr hSorted)))
  · exact Or.inl (Or.inl (Or.inr hSorted))
  · exact Or.inl (Or.inr hSorted)
  · exact Or.inr hSorted

theorem holdsAt_pieces (h : Planned tables classes plan bytes region fileSize) (kind : ItemKind) :
    ∀ p ∈ (plan.container tables classes bytes region fileSize).pieces kind,
      HoldsAt bytes p.offset p.bytes := by
  obtain ⟨hStrings, hTypes, hProtos, hFields, hMethods, hClasses⟩ := h.rows_eq
  obtain ⟨hStrings', hTypes', hProtos', hFields', hMethods', hClasses'⟩ := h.written.holdsAt_sections
  cases kind with
  | header =>
    rw [Container.pieces, List.forall_mem_singleton]
    change HoldsAt bytes 0 _
    rw [h.written.bytes]
    exact Loader.holdsAt_stamp_header _ _
  | stringId =>
    rw [hStrings]
    exact fun p => holdsAt_of_mem_pieceRow length_ofUInt32 hStrings'
  | typeId =>
    rw [hTypes]
    exact fun p => holdsAt_of_mem_pieceRow length_ofUInt32 hTypes'
  | protoId =>
    rw [hProtos]
    exact fun p => holdsAt_of_mem_pieceRow length_encode_protoId hProtos'
  | fieldId =>
    rw [hFields]
    exact fun p => holdsAt_of_mem_pieceRow length_encode_memberId hFields'
  | methodId =>
    rw [hMethods]
    exact fun p => holdsAt_of_mem_pieceRow length_encode_memberId hMethods'
  | classDef =>
    rw [hClasses]
    exact fun p => holdsAt_of_mem_pieceRow length_encode_classDef hClasses'
  | _ =>
    intro p hp
    exact h.written.holdsAt_of_holds (h.carriedOut.fills.holds p (h.mem_data (by decide) hp))

theorem aligned (h : Planned tables classes plan bytes region fileSize) :
    ∀ kind ∈ [ItemKind.codeItem, .typeList, .mapList],
      ∀ p ∈ (plan.container tables classes bytes region fileSize).pieces kind, 4 ∣ p.offset := by
  simp only [List.forall_mem_cons, List.not_mem_nil, false_implies, implies_true, and_true]
  refine ⟨?_, ?_, ?_⟩
  · intro p hp
    replace hp := h.code_perm.mem_iff.mp hp
    simp only [DataPlan.codePieces, ClassData.codePieces, MethodEntry.pieces, List.mem_flatMap,
      List.mem_map] at hp
    obtain ⟨d, hd, m, hm, code, -, rfl⟩ := hp
    exact (h.carriedOut.code d hd m hm).2
  · intro p hp
    obtain ⟨⟨types, offset⟩, hx, rfl⟩ := List.mem_map.mp (h.lists_perm.mem_iff.mp hp)
    exact h.carriedOut.lists_aligned offset (List.of_mem_zip hx).2
  · rw [Container.pieces, List.forall_mem_singleton]
    exact h.carriedOut.map_aligned

theorem data_offset (h : Planned tables classes plan bytes region fileSize) :
    (plan.container tables classes bytes region fileSize).header.data.offset.toNat =
      (sections tables classes.length).stop := by
  have hBound := h.written.stop_lt
  refine UInt32.toNat_ofNat_of_lt ?_
  rw [stop_sections]
  simp only [Ranked.size]
  exact hBound

theorem sections_backToBack (h : Planned tables classes plan bytes region fileSize) :
    let c := plan.container tables classes bytes region fileSize
    Section.BackToBack headerSize
      [(c.header.stringIds, c.strings.size, 4), (c.header.typeIds, c.types.size, 4),
       (c.header.protoIds, c.protos.size, 12), (c.header.fieldIds, c.fields.size, 8),
       (c.header.methodIds, c.methods.size, 8), (c.header.classDefs, c.classes.size, 32)]
      c.header.data.offset.toNat := by
  have hBound := h.written.stop_lt
  obtain ⟨-, hProtos, hClasses⟩ := h.written.length_lists
  have hSection : ∀ {offset count : Nat}, offset + count < 0x100000000 →
      (sectionAt offset count).size.toNat = count ∧
        (sectionAt offset count).offset.toNat = if count = 0 then 0 else offset :=
    fun hFits => sectionAt_toNat (by omega) (by omega)
  have hProtoCount : (plan.container tables classes bytes region fileSize).protos.size =
      tables.protos.entries.size := hProtos
  have hClassCount : (plan.container tables classes bytes region fileSize).classes.size =
      classes.length := hClasses
  intro c
  rw [h.data_offset, hProtoCount, hClassCount]
  refine ⟨(hSection ?_).1, (hSection ?_).2, (hSection ?_).1, (hSection ?_).2, (hSection ?_).1,
    (hSection ?_).2, (hSection ?_).1, (hSection ?_).2, (hSection ?_).1, (hSection ?_).2,
    (hSection ?_).1, (hSection ?_).2, rfl⟩
  all_goals
    simp only [Ranked.size]
    omega

theorem fileSize_eq (h : Planned tables classes plan bytes region fileSize) :
    let c := plan.container tables classes bytes region fileSize
    c.header.fileSize.toNat = bytes.size ∧ 4 ∣ bytes.size ∧
      c.header.data.offset.toNat + c.header.data.size.toNat = bytes.size := by
  refine ⟨h.written.size_bytes.symm, ?_, h.written.stop_data plan.mapOffset⟩
  -- the map list stands last, starts aligned and is a count with entries of twelve bytes
  have hAligned := h.carriedOut.map_aligned
  have hStop := h.carriedOut.stop
  rw [h.written.stop, ← h.written.size_bytes] at hStop
  simp only [Piece.stop, DataPlan.mapPiece, length_encodeMap] at hStop
  omega

theorem typeList_eq_zero_iff (h : Planned tables classes plan bytes region fileSize)
    {x : List UInt16 × UInt32}
    (hx : x ∈ (plan.container tables classes bytes region fileSize).typeLists) :
    x.1 = [] ↔ x.2 = 0 := by
  rw [h.typeLists_eq] at hx
  obtain ⟨types, hTypes, rfl⟩ := List.mem_map.mp hx
  constructor
  · rintro (rfl : types = [])
    have hNone : (collectTypeLists (tables.protos.entries.toList.map ProtoRow.params ++
        classes.map LinkedClass.interfaces)).find? [] = none := by
      rw [← Option.not_isSome_iff_eq_none, Catalog.isSome_find?_iff, collectTypeLists, mem_collect]
      simp [Catalog.empty]
    simp only [DataPlan.typeList, typeListOffset, hNone]
  · intro (hZero : plan.typeList tables classes types = 0)
    by_contra hNonempty
    have hStored : (types, plan.typeList tables classes types) ∈
        (storedTypeLists tables classes).zip plan.listOffsets := by
      rw [h.zip_listOffsets]
      exact List.mem_map_of_mem (mem_storedTypeLists.mpr ⟨hTypes, hNonempty⟩)
    have hPiece : _ ∈ plan.listPieces tables classes := List.mem_map_of_mem hStored
    have hPlaced := h.carriedOut.fills.holds _ (List.mem_append_left _ (List.mem_append_left _
      (List.mem_append_left _ (List.mem_append_right _ hPiece))))
    exact h.written.ne_zero_of_holds hPlaced hZero

theorem shared (h : Planned tables classes plan bytes region fileSize)
    (hApart : ((plan.container tables classes bytes region fileSize).pieces .typeList).Pairwise
      Piece.Apart) :
    let c := plan.container tables classes bytes region fileSize
    ∀ x ∈ c.typeLists, ∀ y ∈ c.typeLists, (x.1 = [] ↔ x.2 = 0) ∧ (x.1 = y.1 ↔ x.2 = y.2) := by
  intro c x hx y hy
  have hx' := h.typeList_eq_zero_iff hx
  have hy' := h.typeList_eq_zero_iff hy
  refine ⟨hx', ?_, ?_⟩
  · intro hSame
    rw [h.typeLists_eq] at hx hy
    obtain ⟨types, -, rfl⟩ := List.mem_map.mp hx
    obtain ⟨types', -, rfl⟩ := List.mem_map.mp hy
    exact congrArg (plan.typeList tables classes) hSame
  · intro hSame
    by_cases hEmpty : x.1 = []
    · rw [hEmpty]
      exact (hy'.mpr (hSame ▸ hx'.mp hEmpty)).symm
    · have hEmpty' : y.1 ≠ [] := fun hNil => hEmpty (hx'.mpr (hSame ▸ hy'.mp hNil))
      exact congrArg Prod.fst (Container.eq_of_same_offset hApart hx hy hEmpty hEmpty' hSame)

theorem map_offset_zip {α : Type} {items : List α} {offsets : List UInt32}
    {encode : α → List UInt8} (hLength : offsets.length = items.length) :
    ((items.zip offsets).map fun x => (⟨x.2.toNat, encode x.1⟩ : Piece)).map Piece.offset =
      offsets.map UInt32.toNat := by
  have hOffsets : offsets = (items.zip offsets).map Prod.snd :=
    (List.map_snd_zip (Nat.le_of_eq hLength)).symm
  conv_rhs => rw [hOffsets]
  simp only [List.map_map]
  rfl

theorem map_offset_codePieces (h : Planned tables classes plan bytes region fileSize) :
    plan.codePieces.map Piece.offset = plan.codeOffsets.map UInt32.toNat := by
  have hMethod : ∀ m : MethodEntry, m.code.isSome →
      m.pieces.map Piece.offset = [m.codeOffset.toNat] := by
    intro m hm
    obtain ⟨code, hCode⟩ := Option.isSome_iff_exists.mp hm
    rw [MethodEntry.pieces, hCode]
    rfl
  have hClass : ∀ d ∈ plan.declared,
      d.codePieces.map Piece.offset = (d.methods.map MethodEntry.codeOffset).map UInt32.toNat := by
    intro d hd
    rw [ClassData.codePieces, List.map_flatMap, List.map_map, List.map_eq_flatMap]
    exact List.flatMap_congr fun m hm => hMethod m (h.carriedOut.code d hd m hm).1
  rw [DataPlan.codePieces, DataPlan.codeOffsets, List.map_flatMap, List.map_flatMap]
  exact List.flatMap_congr hClass

theorem view_sections (h : Planned tables classes plan bytes region fileSize) :
    let c := plan.container tables classes bytes region fileSize
    let ids := sections tables classes.length
    (mapSection .stringId ids.strings).map MapItem.view =
        (summary? .stringId (c.pieces .stringId)).toList ∧
      (mapSection .typeId ids.types).map MapItem.view =
        (summary? .typeId (c.pieces .typeId)).toList ∧
      (mapSection .protoId ids.protos).map MapItem.view =
        (summary? .protoId (c.pieces .protoId)).toList ∧
      (mapSection .fieldId ids.fields).map MapItem.view =
        (summary? .fieldId (c.pieces .fieldId)).toList ∧
      (mapSection .methodId ids.methods).map MapItem.view =
        (summary? .methodId (c.pieces .methodId)).toList ∧
      (mapSection .classDef ids.classes).map MapItem.view =
        (summary? .classDef (c.pieces .classDef)).toList := by
  have hBound := h.written.stop_lt
  obtain ⟨hStrings, hTypes, hProtos, hFields, hMethods, hClasses⟩ := h.rows_eq
  obtain ⟨hStringCount, hProtoCount, hClassCount⟩ := h.written.length_lists
  intro c ids
  rw [hStrings, hTypes, hProtos, hFields, hMethods, hClasses]
  have hRow : ∀ {α : Type} {offset count width : Nat} {encode : α → List UInt8} {entries : List α}
      (kind : ItemKind), (∀ a, (encode a).length = width) → entries.length = count →
        offset + count < 0x100000000 →
          (mapSection kind (sectionAt offset count)).map MapItem.view =
            (summary? kind (pieceRow offset width encode entries)).toList := by
    rintro α offset count width encode entries kind hEncode rfl hFits
    exact view_mapSection (by omega) (by omega) hEncode kind
  refine ⟨hRow _ length_ofUInt32 hStringCount ?_, hRow _ length_ofUInt32 rfl ?_,
    hRow _ length_encode_protoId hProtoCount ?_, hRow _ length_encode_memberId rfl ?_,
    hRow _ length_encode_memberId rfl ?_, hRow _ length_encode_classDef hClassCount ?_⟩
  all_goals
    simp only [Ranked.size]
    omega

theorem directory (h : Planned tables classes plan bytes region fileSize) :
    let c := plan.container tables classes bytes region fileSize
    c.map.toList.map MapItem.view =
      ItemKind.fileOrder.filterMap fun kind => Piece.summary? kind (c.pieces kind) := by
  obtain ⟨hStrings, hTypes, hProtos, hFields, hMethods, hClasses⟩ := h.view_sections
  have hItems : ∀ (kind : ItemKind) {offsets : List UInt32},
      (plan.sorted tables classes (plan.container tables classes bytes region fileSize) kind).map
        Piece.offset = offsets.map UInt32.toNat →
      (mapItems kind offsets).map MapItem.view = (summary? kind
        ((plan.container tables classes bytes region fileSize).pieces kind)).toList := by
    intro kind offsets hOffsets
    rw [summary?_perm (h.perm_sorted kind)]
    exact view_mapItems hOffsets (h.inOrder_kind kind) (h.count_lt kind)
  intro c
  have hView : c.map.toList.map MapItem.view =
      (plan.map (sections tables classes.length)).map MapItem.view := rfl
  rw [hView, List.filterMap_eq_flatMap_toList, ItemKind.flatMap_fileOrder, DataPlan.map]
  simp only [List.map_append]
  rw [hItems .codeItem h.map_offset_codePieces,
    hItems .typeList (map_offset_zip h.carriedOut.listOffsets_length),
    hItems .stringData (map_offset_zip h.carriedOut.stringOffsets_length),
    hItems .classData (map_offset_zip h.carriedOut.dataOffsets_length), hStrings, hTypes, hProtos,
    hFields, hMethods, hClasses]
  rfl

theorem wellLaid (h : Planned tables classes plan bytes region fileSize) :
    (plan.container tables classes bytes region fileSize).WellLaid := by
  have hApart := Container.apart_of_sorted h.perm_sorted h.inOrder
  have hOrdered := Container.ordered_of_sorted h.perm_sorted h.inOrder
  constructor
  case sections => exact h.sections_backToBack
  case stands =>
    intro kind p hp
    exact ⟨h.holdsAt_pieces kind p hp, Container.stop_le_of_sorted h.perm_sorted h.inOrder hp⟩
  case ordered => exact hOrdered
  case apart => exact hApart
  case in_data =>
    intro kind hKind p hp
    rw [h.data_offset]
    exact h.carriedOut.fills.inOrder.start_le p (h.mem_data hKind hp)
  case aligned => exact h.aligned
  case shared => exact h.shared (hApart .typeList)
  case fileSize => exact h.fileSize_eq
  case directory => exact h.directory
  case ascending => exact Container.ascending_of_ordered hOrdered h.directory
  case first => rfl
  case last =>
    change (plan.map (sections tables classes.length)).getLast? = _
    rw [DataPlan.map, List.getLast?_concat]
    rfl

end Planned

end Image

end DexForge
