import DexForge.Proofs.Layout.FloorPlan
import DexForge.Proofs.Layout.Room

/-! # The plan of the data region

The items that the plan of a data region names fill it without overlap, in the order code, type
lists, texts, class data, map.
-/
set_option autoImplicit false

namespace DexForge

namespace Image

open Placing

namespace DataPlan

variable (tables : Tables) (ids : Sections) (classes : List LinkedClass) (plan : DataPlan)

def codePieces : List Piece := plan.declared.flatMap ClassData.codePieces

def listPieces : List Piece :=
  ((storedTypeLists tables classes).zip plan.listOffsets).map fun x =>
    ⟨x.2.toNat, encodeTypeList x.1⟩

def stringPieces : List Piece :=
  (tables.strings.entries.toList.zip plan.stringOffsets).map fun x =>
    ⟨x.2.toNat, encodeText x.1⟩

def dataPieces : List Piece :=
  (plan.data.zip plan.dataOffsets).map fun x => ⟨x.2.toNat, x.1.encode⟩

def mapPiece : Piece := ⟨plan.mapOffset.toNat, encodeMap (plan.map ids)⟩

structure CarriedOut (r r' : DataRegion) : Prop where
  fills : Fills r r' (plan.codePieces ++ plan.listPieces tables classes ++
    plan.stringPieces tables ++ plan.dataPieces ++ [plan.mapPiece ids])
  stop : r'.stop = (plan.mapPiece ids).stop
  declared_length : plan.declared.length = classes.length
  listOffsets_length : plan.listOffsets.length = (storedTypeLists tables classes).length
  stringOffsets_length : plan.stringOffsets.length = tables.strings.entries.toList.length
  dataOffsets_length : plan.dataOffsets.length = plan.data.length
  code : ∀ d ∈ plan.declared, ∀ m ∈ d.methods, m.code.isSome ∧ 4 ∣ m.codeOffset.toNat
  lists_aligned : ∀ o ∈ plan.listOffsets, 4 ∣ o.toNat
  map_aligned : 4 ∣ plan.mapOffset.toNat

end DataPlan

theorem placeMethod_fills {tables : Tables} {m : LinkedMethod} {r r' : DataRegion}
    {entry : MethodEntry} (h : placeMethod tables m r = .ok (entry, r')) :
    Fills r r' entry.pieces ∧ entry.code.isSome ∧ 4 ∣ entry.codeOffset.toNat := by
  obtain ⟨code, s, hCode, h⟩ := bind_eq_ok_iff.mp h
  obtain ⟨rfl, rfl⟩ := pure_eq_ok_iff.mp h
  obtain ⟨hAppended, -, -, hAligned⟩ := placeCode_eq_ok hCode
  exact ⟨hAppended.fills, rfl, hAligned⟩

theorem placeMethods_fills {tables : Tables} {c : LinkedClass} {r r' : DataRegion}
    {declared : ClassData} (h : placeMethods tables c r = .ok (declared, r')) :
    Fills r r' declared.codePieces ∧
      ∀ m ∈ declared.methods, m.code.isSome ∧ 4 ∣ m.codeOffset.toNat := by
  obtain ⟨direct, s, hDirect, h⟩ := bind_eq_ok_iff.mp h
  obtain ⟨virtual, t, hVirtual, h⟩ := bind_eq_ok_iff.mp h
  obtain ⟨rfl, rfl⟩ := pure_eq_ok_iff.mp h
  obtain ⟨hFirst, -, hDirect⟩ := mapM_fills_right placeMethod_fills hDirect
  obtain ⟨hSecond, -, hVirtual⟩ := mapM_fills_right placeMethod_fills hVirtual
  refine ⟨?_, List.forall_mem_append.mpr ⟨hDirect, hVirtual⟩⟩
  rw [ClassData.codePieces, ClassData.methods, List.flatMap_append]
  exact hFirst.trans hSecond

theorem exists_plan {tables : Tables} {ids : Sections} {classes : List LinkedClass}
    {r r' : DataRegion} {draft : Draft} (h : placeData tables ids classes r = .ok (draft, r')) :
    ∃ plan : DataPlan, plan.draft tables classes = draft ∧
      plan.CarriedOut tables ids classes r r' := by
  obtain ⟨plan, s₁, s₂, s₃, s₄, s₅, hDraft, hDeclared, hLists, hStrings, hData, hAlign, hMapOffset,
    hAppend⟩ := exists_plan_of_placeData h
  refine ⟨plan, hDraft, ?_⟩
  obtain ⟨hCode, hClasses, hMethods⟩ := mapM_fills_right placeMethods_fills hDeclared
  obtain ⟨hLists, hListCount, hListsAligned⟩ := mapM_item_fills alignedItem_eq_ok hLists
  obtain ⟨hStrings, hStringCount, -⟩ :=
    mapM_item_fills (P := fun _ => True) (fun hStep => ⟨(item_eq_ok hStep).1, trivial⟩) hStrings
  obtain ⟨hData, hDataCount, -⟩ :=
    mapM_item_fills (P := fun _ => True) (fun hStep => ⟨(item_eq_ok hStep).1, trivial⟩) hData
  obtain ⟨hPadded, hAligned⟩ := align_eq_ok hAlign
  obtain ⟨hExtends, hHolds, hStop⟩ := append_eq_ok hAppend
  rw [← hMapOffset] at hHolds hStop
  have hMapFills := (fills_of_extends hPadded).trans
    (Appended.fills ⟨hExtends, Nat.le_of_eq hMapOffset.symm, hHolds⟩)
  constructor
  case fills => exact (((hCode.trans hLists).trans hStrings).trans hData).trans hMapFills
  case stop => exact hStop
  case declared_length => exact hClasses.symm
  case listOffsets_length => exact hListCount.symm
  case stringOffsets_length => exact hStringCount.symm
  case dataOffsets_length => exact hDataCount.symm
  case code => exact hMethods
  case lists_aligned => exact hListsAligned
  case map_aligned =>
    rw [hMapOffset]
    exact hAligned

end Image

end DexForge
