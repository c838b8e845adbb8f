import DexForge.Container.Encoding
import DexForge.Container.Header
import DexForge.Proofs.Bytes.Uleb128
import DexForge.Proofs.Layout.Pieces
import Mathlib.Data.List.Dedup
import Mathlib.Data.List.Pairwise
import Mathlib.Data.List.Perm.Basic

/-! # The floor plan of a container

Which items a container has and where they stand follows from its header, its tables and the offsets
in them. A well laid container has its items in one order, apart from each other, and a map list that
names every kind of them.
-/
set_option autoImplicit false

namespace DexForge

/-- Sections of so many entries of so many bytes, one behind the other. An empty one has neither
size nor offset. -/
def Section.BackToBack : Nat → List (Section × Nat × Nat) → Nat → Prop
  | start, [], stop => start = stop
  | start, (s, count, width) :: rest, stop =>
    s.size.toNat = count ∧ s.offset.toNat = (if count = 0 then 0 else start) ∧
      BackToBack (start + width * count) rest stop

namespace ItemKind

def dataOrder : List ItemKind := [codeItem, typeList, stringData, classData, mapList]

def fileOrder : List ItemKind :=
  [header, stringId, typeId, protoId, fieldId, methodId, classDef] ++ dataOrder

theorem mem_fileOrder (kind : ItemKind) : kind ∈ fileOrder := by
  cases kind <;> decide

theorem flatMap_fileOrder {α : Type} (f : ItemKind → List α) :
    fileOrder.flatMap f = f header ++ f stringId ++ f typeId ++ f protoId ++ f fieldId ++
      f methodId ++ f classDef ++ f codeItem ++ f typeList ++ f stringData ++ f classData ++
      f mapList := by
  simp [fileOrder, dataOrder]

end ItemKind

namespace Piece

def summary? (kind : ItemKind) (ps : List Piece) : Option (ItemKind × Nat × Nat) :=
  (ps.map Piece.offset).min?.map fun first => (kind, ps.length, first)

theorem summary?_perm {kind : ItemKind} {ps qs : List Piece} (h : ps.Perm qs) :
    summary? kind ps = summary? kind qs := by
  have hMin : (ps.map Piece.offset).min? = (qs.map Piece.offset).min? := by
    apply Option.ext
    intro first
    simp only [List.min?_eq_some_iff, (h.map Piece.offset).mem_iff]
  rw [summary?, summary?, hMin, h.length_eq]

theorem summary?_eq_some_iff {kind : ItemKind} {ps : List Piece} {entry : ItemKind × Nat × Nat} :
    summary? kind ps = some entry ↔
      ∃ p ∈ ps, (∀ q ∈ ps, p.offset ≤ q.offset) ∧ entry = (kind, ps.length, p.offset) := by
  simp only [summary?, Option.map_eq_some_iff, List.min?_eq_some_iff, List.mem_map,
    forall_exists_index, and_imp, forall_apply_eq_imp_iff₂]
  constructor
  · rintro ⟨_, ⟨⟨p, hp, rfl⟩, hLeast⟩, rfl⟩
    exact ⟨p, hp, hLeast, rfl⟩
  · rintro ⟨p, hp, hLeast, rfl⟩
    exact ⟨_, ⟨⟨p, hp, rfl⟩, hLeast⟩, rfl⟩

theorem InOrder.summary? {kind : ItemKind} {start stop : Nat} {ps : List Piece}
    (h : InOrder start ps stop) :
    Piece.summary? kind ps = ps.head?.map fun p => (kind, ps.length, p.offset) := by
  rw [Piece.summary?, h.min?_offset, Option.map_map]
  rfl

end Piece

namespace MethodEntry

def pieces (m : MethodEntry) : List Piece :=
  m.code.toList.map fun code => ⟨m.codeOffset.toNat, code.encode⟩

end MethodEntry

namespace ClassData

def codePieces (d : ClassData) : List Piece := d.methods.flatMap MethodEntry.pieces

end ClassData

def MapItem.view (item : MapItem) : ItemKind × Nat × Nat :=
  (item.kind, item.size.toNat, item.offset.toNat)

namespace Container

open LittleEndian

def stringOffsets (c : Container) : List UInt32 :=
  (List.range c.strings.size).map fun i =>
    (uint32At? c.bytes (c.header.stringIds.offset.toNat + i * 4)).getD 0

def typeLists (c : Container) : List (List UInt16 × UInt32) :=
  c.protos.toList.map (fun p => (p.params, p.paramsOffset)) ++
    c.classes.toList.map fun d => (d.interfaces, d.interfacesOffset)

def classData (c : Container) : List (ClassData × UInt32) :=
  c.classes.toList.filterMap fun d => d.data.map fun data => (data, d.dataOffset)

/-- The items of a kind. Type lists of one content and one offset are one item. -/
def pieces (c : Container) : ItemKind → List Piece
  | .header => [⟨0, c.header.encode⟩]
  | .stringId => pieceRow c.header.stringIds.offset.toNat 4 ofUInt32 c.stringOffsets
  | .typeId => pieceRow c.header.typeIds.offset.toNat 4 ofUInt32 c.types.toList
  | .protoId => pieceRow c.header.protoIds.offset.toNat 12 ProtoId.encode c.protos.toList
  | .fieldId => pieceRow c.header.fieldIds.offset.toNat 8 MemberId.encode c.fields.toList
  | .methodId => pieceRow c.header.methodIds.offset.toNat 8 MemberId.encode c.methods.toList
  | .classDef => pieceRow c.header.classDefs.offset.toNat 32 ClassDef.encode c.classes.toList
  | .codeItem => c.classData.flatMap fun x => x.1.codePieces
  | .typeList => (c.typeLists.filter fun x => x.1 ≠ []).dedup.map fun x =>
      ⟨x.2.toNat, encodeTypeList x.1⟩
  | .stringData => (c.strings.toList.zip c.stringOffsets).map fun x => ⟨x.2.toNat, encodeText x.1⟩
  | .classData => c.classData.map fun x => ⟨x.2.toNat, x.1.encode⟩
  | .mapList => [⟨c.header.mapOffset.toNat, encodeMap c.map.toList⟩]

theorem bytes_ne_nil {c : Container} {kind : ItemKind} :
    ∀ p ∈ c.pieces kind, p.bytes ≠ [] := by
  have hRow : ∀ {α : Type} {start width : Nat} {encode : α → List UInt8} {entries : List α},
      (∀ a, encode a ≠ []) → ∀ p ∈ pieceRow start width encode entries, p.bytes ≠ [] := by
    intro α start width encode entries hEncode p hp
    obtain ⟨⟨a, i⟩, -, rfl⟩ := List.mem_map.mp hp
    exact hEncode a
  cases kind with
  | header => simp [pieces, Header.encode, ofUInt32]
  | stringId => exact hRow fun _ => by simp [ofUInt32]
  | typeId => exact hRow fun _ => by simp [ofUInt32]
  | protoId => exact hRow fun _ => by simp [ProtoId.encode, ofUInt32]
  | fieldId => exact hRow fun _ => by simp [MemberId.encode, ofUInt32]
  | methodId => exact hRow fun _ => by simp [MemberId.encode, ofUInt32]
  | classDef => exact hRow fun _ => by simp [ClassDef.encode, ClassDef.words, ofUInt32]
  | mapList => simp [pieces, encodeMap, ofUInt32]
  | typeList =>
    rw [pieces, List.forall_mem_map]
    exact fun x _ => by simp [encodeTypeList, ofUInt32]
  | classData =>
    rw [pieces, List.forall_mem_map]
    exact fun x _ => by simp [ClassData.encode, Uleb128.encode_ne_nil]
  | codeItem =>
    intro p hp
    simp only [pieces, ClassData.codePieces, MethodEntry.pieces, List.mem_flatMap,
      List.mem_map] at hp
    obtain ⟨x, -, m, -, code, -, rfl⟩ := hp
    simp [CodeItem.encode, ofUInt16]
  | stringData =>
    rw [pieces, List.forall_mem_map]
    exact fun x _ => by simp [encodeText]

structure WellLaid (c : Container) : Prop where
  /-- The id sections follow the header back to back, and the data follows them. -/
  sections : Section.BackToBack headerSize
    [(c.header.stringIds, c.strings.size, 4), (c.header.typeIds, c.types.size, 4),
     (c.header.protoIds, c.protos.size, 12), (c.header.fieldIds, c.fields.size, 8),
     (c.header.methodIds, c.methods.size, 8), (c.header.classDefs, c.classes.size, 32)]
    c.header.data.offset.toNat
  stands : ∀ kind, ∀ p ∈ c.pieces kind, HoldsAt c.bytes p.offset p.bytes ∧ p.stop ≤ c.bytes.size
  ordered : ItemKind.fileOrder.Pairwise fun kind kind' =>
    ∀ p ∈ c.pieces kind, ∀ q ∈ c.pieces kind', p.stop ≤ q.offset
  apart : ∀ kind, (c.pieces kind).Pairwise Piece.Apart
  in_data : ∀ kind ∈ ItemKind.dataOrder, ∀ p ∈ c.pieces kind,
    c.header.data.offset.toNat ≤ p.offset
  aligned : ∀ kind ∈ [ItemKind.codeItem, .typeList, .mapList], ∀ p ∈ c.pieces kind, 4 ∣ p.offset
  /-- Offset zero stands for the empty type list, and equal lists share their offset. -/
  shared : ∀ x ∈ c.typeLists, ∀ y ∈ c.typeLists,
    (x.1 = [] ↔ x.2 = 0) ∧ (x.1 = y.1 ↔ x.2 = y.2)
  fileSize : c.header.fileSize.toNat = c.bytes.size ∧ 4 ∣ c.bytes.size ∧
    c.header.data.offset.toNat + c.header.data.size.toNat = c.bytes.size
  /-- The map list names every kind of which there are items, once. -/
  directory : c.map.toList.map MapItem.view =
    ItemKind.fileOrder.filterMap fun kind => Piece.summary? kind (c.pieces kind)
  ascending : c.map.toList.Pairwise fun a b => a.offset < b.offset
  first : c.map.toList.head? = some ⟨.header, 1, 0⟩
  last : c.map.toList.getLast? = some ⟨.mapList, 1, c.header.mapOffset⟩

section Sorting

variable {c : Container} {sorted : ItemKind → List Piece}
  (hPerm : ∀ kind, (c.pieces kind).Perm (sorted kind))
  (hOrder : Piece.InOrder 0 (ItemKind.fileOrder.flatMap sorted) c.bytes.size)
include hPerm hOrder

theorem stop_le_of_sorted {kind : ItemKind} {p : Piece} (hp : p ∈ c.pieces kind) :
    p.stop ≤ c.bytes.size := by
  apply hOrder.stop_le
  rw [List.mem_flatMap]
  exact ⟨kind, kind.mem_fileOrder, (hPerm kind).mem_iff.mp hp⟩

theorem ordered_of_sorted : ItemKind.fileOrder.Pairwise fun kind kind' =>
    ∀ p ∈ c.pieces kind, ∀ q ∈ c.pieces kind', p.stop ≤ q.offset := by
  refine (List.pairwise_flatMap.mp hOrder.pairwise).2.imp ?_
  intro kind kind' h p hp q hq
  exact h p ((hPerm kind).mem_iff.mp hp) q ((hPerm kind').mem_iff.mp hq)

theorem apart_of_sorted (kind : ItemKind) :
    (c.pieces kind).Pairwise Piece.Apart := by
  rw [(hPerm kind).pairwise_iff Piece.Apart.symm]
  exact ((List.pairwise_flatMap.mp hOrder.pairwise).1 kind kind.mem_fileOrder).imp Or.inl

end Sorting

/-- Items of different kinds start at different offsets, so the kinds in file order do. -/
theorem ascending_of_ordered {c : Container}
    (hOrdered : ItemKind.fileOrder.Pairwise fun kind kind' =>
      ∀ p ∈ c.pieces kind, ∀ q ∈ c.pieces kind', p.stop ≤ q.offset)
    (hDirectory : c.map.toList.map MapItem.view =
      ItemKind.fileOrder.filterMap fun kind => Piece.summary? kind (c.pieces kind)) :
    c.map.toList.Pairwise fun a b => a.offset < b.offset := by
  have hViews : (c.map.toList.map MapItem.view).Pairwise fun a b => a.2.2 < b.2.2 := by
    rw [hDirectory, List.pairwise_filterMap]
    refine hOrdered.imp ?_
    intro kind kind' h a ha b hb
    obtain ⟨p, hp, -, rfl⟩ := Piece.summary?_eq_some_iff.mp ha
    obtain ⟨q, hq, -, rfl⟩ := Piece.summary?_eq_some_iff.mp hb
    have hStop := h p hp q hq
    have hLength := List.length_pos_iff.mpr (bytes_ne_nil p hp)
    rw [Piece.stop] at hStop
    change p.offset < q.offset
    omega
  rw [List.pairwise_map] at hViews
  exact hViews.imp fun h => UInt32.lt_iff_toNat_lt.mpr h

/-- Two lists at one offset would overlap. -/
theorem eq_of_same_offset {c : Container} (hApart : (c.pieces .typeList).Pairwise Piece.Apart)
    {x y : List UInt16 × UInt32} (hx : x ∈ c.typeLists) (hy : y ∈ c.typeLists) (hx' : x.1 ≠ [])
    (hy' : y.1 ≠ []) (h : x.2 = y.2) : x = y := by
  have hStored : ∀ {z : List UInt16 × UInt32}, z ∈ c.typeLists → z.1 ≠ [] →
      z ∈ (c.typeLists.filter fun z => z.1 ≠ []).dedup := by
    intro z hz hz'
    simp [hz, hz']
  have hPieces : ∀ p ∈ c.pieces .typeList, p.bytes ≠ [] := bytes_ne_nil
  have hBytes : ∀ z ∈ (c.typeLists.filter fun z => z.1 ≠ []).dedup, encodeTypeList z.1 ≠ [] :=
    fun z hz => hPieces _ (List.mem_map_of_mem hz)
  by_contra hNe
  rw [pieces, List.pairwise_map] at hApart
  have hSymm : Std.Symm fun a b : List UInt16 × UInt32 =>
      Piece.Apart ⟨a.2.toNat, encodeTypeList a.1⟩ ⟨b.2.toNat, encodeTypeList b.1⟩ :=
    ⟨fun _ _ => Piece.Apart.symm⟩
  have hPair := hApart.forall (hStored hx hx') (hStored hy hy') hNe
  exact hPair.offset_ne (hBytes x (hStored hx hx')) (hBytes y (hStored hy hy')) (by rw [h])

end Container

end DexForge
