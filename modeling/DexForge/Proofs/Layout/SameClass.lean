import DexForge.Proofs.Layout.ClassTexts
import DexForge.Proofs.Pool.ContentOrder
import DexForge.Proofs.Proxy.Agreement

/-! # One class in two containers

Two definitions of the same class may be laid out among different others, and then all their indices
differ. In texts they are the same, members in the same order: the order of the members follows their
indices, and those are in the order of the texts.
-/
set_option autoImplicit false

namespace DexForge

open DexForge.Except Image

namespace Container

/-- The container holds the tables that the pools are finished to. -/
structure Displays (c : Container) (r : Ranking) (p : Pools) : Prop where
  shows : c.Shows r
  orders : r.Orders p
  wellFormed : p.WellFormed
  strings : r.size .string ≤ noIndex.toNat

namespace Displays

variable {c : Container} {r : Ranking} {p : Pools} (h : c.Displays r p)
include h

theorem contents_eq_ok {t : TableName} {i : UInt32} {x : Contents t}
    (hx : r.contents? t i.toNat = some x) : c.contents t i = .ok x := by
  rw [← UInt32.ofNat_toNat (x := i)]
  cases t with
  | string => exact h.shows.string_eq_ok hx
  | type => exact h.shows.typeText_eq_ok hx
  | proto => exact h.shows.protoTexts_eq_ok hx
  | field => exact h.shows.fieldTexts_eq_ok hx
  | method => exact h.shows.methodTexts_eq_ok hx

theorem contents_of_index {t : TableName} {slot : Slot t} {i : UInt32} {x : Contents t}
    (hIndex : r.narrow.index slot = .ok i) (hx : p.contents? slot = some x) :
    c.contents t i = .ok x := by
  have hPlace := (h.orders.index_eq_ok_iff h.shows.small).mp hIndex
  exact h.contents_eq_ok ((h.orders.contents_of_place hPlace).trans hx)

theorem ne_noIndex {t : TableName} {i : UInt32} {x : Contents t}
    (hx : r.contents? t i.toNat = some x) : i ≠ noIndex := by
  rintro rfl
  have hSize : r.size t ≤ noIndex.toNat := by
    cases t with
    | string => exact h.strings
    | _ => exact Nat.le_trans (h.shows.small _) (by decide)
  exact Nat.not_lt.mpr hSize (Ranking.lt_size_of_contents? hx)

end Displays

end Container

namespace Lowering

theorem form_constString (dst : UInt8) (string : UInt32) :
    (constString dst string).form = .constString dst 0 ∧
      (constString dst string).reference? = some ⟨.string, string⟩ := by
  rw [constString]
  split
  · next hSmall =>
    rw [Instruction.reference?, toUInt32_toUInt16 hSmall]
    exact ⟨rfl, rfl⟩
  · exact ⟨rfl, rfl⟩

/-- Which form a call takes is up to its arguments. -/
theorem form_of_invoke {arithmetic : Arithmetic} {kind : InvokeKind} {method : UInt16}
    {args : List UInt16} {i : Instruction} (h : invoke arithmetic kind method args = .ok i) :
    invoke arithmetic kind 0 args = .ok i.form ∧
      i.reference? = some ⟨.method, method.toUInt32⟩ := by
  rw [invoke] at h ⊢
  split at h
  · next hNarrow =>
    cases h
    exact ⟨if_pos hNarrow, rfl⟩
  · next hNarrow =>
    rw [if_neg hNarrow]
    obtain ⟨run, hRun, h⟩ := Except.bind_eq_ok_iff.mp h
    split at h
    · next hShort =>
      cases h
      dsimp only
      rw [hRun, Except.ok_bind, if_pos hShort]
      exact ⟨rfl, rfl⟩
    · cases h

end Lowering

namespace Image

theorem eq_of_compareFields {a b : FieldEntry} (h : compareFields a b = .eq) : a = b := by
  obtain ⟨field, ⟨bits⟩⟩ := a
  obtain ⟨field', ⟨bits'⟩⟩ := b
  simp only [compareFields, Ordering.then_eq_eq, Std.LawfulEqOrd.compare_eq_iff_eq] at h
  obtain ⟨rfl, rfl⟩ := h
  rfl

theorem remapsOption_iff {α : Type} {t : TableName} {table : Ranked α} {slot? : Option (Slot t)}
    {index : UInt32} : RemapsOption table slot? index ↔
      slot?.elim (index = noIndex) fun slot => Remaps table slot index := by
  cases slot? <;> rfl

section CodeOrder

variable {declared : List MethodEntry}
  (hCode : declared.Pairwise fun a b => a.codeOffset < b.codeOffset)
include hCode

theorem compare_codeOffset {i j : Nat} {a b : MethodEntry} (ha : declared[i]? = some a)
    (hb : declared[j]? = some b) : compare i j = compare a.codeOffset b.codeOffset := by
  have hLess : declared.Pairwise fun a b => compareOn MethodEntry.codeOffset a b = .lt :=
    hCode.imp fun hOffset => Std.compare_eq_lt.mpr hOffset
  exact compare_of_pairwise_lt hLess ha hb

theorem eq_of_compareMethods {a b : MethodEntry} (ha : a ∈ declared) (hb : b ∈ declared)
    (h : compareMethods a b = .eq) : a = b := by
  obtain ⟨i, hi⟩ := List.mem_iff_getElem?.mp ha
  obtain ⟨j, hj⟩ := List.mem_iff_getElem?.mp hb
  simp only [compareMethods, Ordering.then_eq_eq] at h
  rw [← compare_codeOffset hCode hi hj, Nat.compare_eq_eq] at h
  obtain ⟨-, -, rfl⟩ := h
  exact Option.some.inj (hi.symm.trans hj)

end CodeOrder

end Image

namespace Container.Displays

variable {c c' : Container} {r r' : Ranking} {p p' : Pools} (h : c.Displays r p)
  (h' : c'.Displays r' p')

section Code

open Lowering

theorem concur_plain {i : Instruction} (hi : i.reference? = none) :
    Concur (c.instructionTexts i) (c'.instructionTexts i) := by
  rw [instructionTexts, instructionTexts, hi]
  exact concur_ok _

include h h'

theorem concur_reference (kind : ReferenceKind) {slot slot' : Slot kind.table}
    (hSame : p.SameContents p' kind.table slot slot') {index index' : UInt32}
    (hIndex : r.narrow.index slot = .ok index) (hIndex' : r'.narrow.index slot' = .ok index')
    {i i' : Instruction} (hi : i.reference? = some ⟨kind, index⟩)
    (hi' : i'.reference? = some ⟨kind, index'⟩) (hForm : i.form = i'.form) :
    Concur (c.instructionTexts i) (c'.instructionTexts i') := by
  obtain ⟨x, hx, hx'⟩ := hSame
  have hTarget : Concur (c.targetTexts ⟨kind, index⟩) (c'.targetTexts ⟨kind, index'⟩) := by
    rw [targetTexts, targetTexts, h.contents_of_index hIndex hx, h'.contents_of_index hIndex' hx']
    exact concur_ok _
  rw [instructionTexts, instructionTexts, hi, hi', hForm]
  exact (concur_optionMapM hTarget).bind fun _ => concur_ok _

theorem concur_lower {op op' : Operation Slot} (hAgrees : op.Agrees (p.SameContents p') op')
    {i i' : Instruction} (hi : op.lower r.narrow = .ok i) (hi' : op'.lower r'.narrow = .ok i') :
    Concur (c.instructionTexts i) (c'.instructionTexts i') := by
  have hWiden : ∀ {place : Except SynthesisError UInt16} {j : UInt16}, place = .ok j →
      place.map UInt16.toUInt32 = .ok j.toUInt32 := fun hPlace => by rw [hPlace]; rfl
  cases Operation.becomes_of_lower hi with
  | const dst value =>
    cases hAgrees
    cases Operation.becomes_of_lower hi'
    refine concur_plain ?_
    rw [Lowering.const]
    split
    · rfl
    · split <;> rfl
  | constString hIndex =>
    cases hAgrees with
    | constString hSlot =>
      cases Operation.becomes_of_lower hi' with
      | constString hIndex' =>
        obtain ⟨hForm, hReference⟩ := form_constString _ _
        obtain ⟨hForm', hReference'⟩ := form_constString _ _
        exact concur_reference h h' .string hSlot hIndex hIndex' hReference hReference'
          (hForm.trans hForm'.symm)
  | checkCast hIndex =>
    cases hAgrees with
    | checkCast hSlot =>
      cases Operation.becomes_of_lower hi' with
      | checkCast hIndex' =>
        exact concur_reference h h' .type hSlot (hWiden hIndex) (hWiden hIndex') rfl rfl rfl
  | newArray _ _ hIndex =>
    cases hAgrees with
    | newArray hSlot =>
      cases Operation.becomes_of_lower hi' with
      | newArray _ _ hIndex' =>
        exact concur_reference h h' .type hSlot (hWiden hIndex) (hWiden hIndex') rfl rfl rfl
  | igetObject _ _ hIndex =>
    cases hAgrees with
    | igetObject hSlot =>
      cases Operation.becomes_of_lower hi' with
      | igetObject _ _ hIndex' =>
        exact concur_reference h h' .field hSlot (hWiden hIndex) (hWiden hIndex') rfl rfl rfl
  | iputObject _ _ hIndex =>
    cases hAgrees with
    | iputObject hSlot =>
      cases Operation.becomes_of_lower hi' with
      | iputObject _ _ hIndex' =>
        exact concur_reference h h' .field hSlot (hWiden hIndex) (hWiden hIndex') rfl rfl rfl
  | sgetObject hIndex =>
    cases hAgrees with
    | sgetObject hSlot =>
      cases Operation.becomes_of_lower hi' with
      | sgetObject hIndex' =>
        exact concur_reference h h' .field hSlot (hWiden hIndex) (hWiden hIndex') rfl rfl rfl
  | invoke hIndex hInvoke =>
    cases hAgrees with
    | invoke hSlot =>
      cases Operation.becomes_of_lower hi' with
      | invoke hIndex' hInvoke' =>
        obtain ⟨hForm, hReference⟩ := form_of_invoke hInvoke
        obtain ⟨hForm', hReference'⟩ := form_of_invoke hInvoke'
        exact concur_reference h h' .method hSlot (hWiden hIndex) (hWiden hIndex') hReference
          hReference' (Except.ok.inj (hForm.symm.trans hForm'))
  | _ =>
    cases hAgrees
    cases Operation.becomes_of_lower hi'
    exact concur_plain rfl

theorem concur_code {body body' : MethodBody Slot} (hAgrees : body.Agrees (p.SameContents p') body')
    {code code' : CodeItem} (hStores : StoresCode r.narrow body code)
    (hStores' : StoresCode r'.narrow body' code') :
    Concur (c.codeTexts code) (c'.codeTexts code') := by
  obtain ⟨is, hLower, hRead⟩ := hStores.instructions
  obtain ⟨is', hLower', hRead'⟩ := hStores'.instructions
  have hTexts : Concur (is.mapM c.instructionTexts) (is'.mapM c'.instructionTexts) := by
    apply concur_mapM
    refine Pairing.square hAgrees.code (mapM_eq_ok_iff.mp hLower) (mapM_eq_ok_iff.mp hLower') ?_
    intro op op' i i' hOp hi hi'
    exact concur_lower h h' hOp hi hi'
  rw [codeTexts, codeTexts, hRead, hRead', ok_bind, ok_bind, CodeItem.map_snd_positioned,
    CodeItem.map_snd_positioned, hStores.registers, hStores'.registers, hStores.ins, hStores'.ins,
    hStores.outs, hStores'.outs, hStores.tries, hStores'.tries, hAgrees.registers, hAgrees.ins,
    hAgrees.outs]
  exact hTexts.bind fun _ => concur_ok _

end Code

def SameReferent (r r' : Ranking) (t : TableName) (i i' : UInt32) : Prop :=
  ∃ x, r.contents? t i.toNat = some x ∧ r'.contents? t i'.toNat = some x

include h h'

theorem sameReferent {t : TableName} {slot slot' : Slot t} (hSame : p.SameContents p' t slot slot')
    {i i' : UInt32} (hPlace : r.place? slot = some i.toNat)
    (hPlace' : r'.place? slot' = some i'.toNat) : SameReferent r r' t i i' := by
  obtain ⟨x, hx, hx'⟩ := hSame
  exact ⟨x, (h.orders.contents_of_place hPlace).trans hx,
    (h'.orders.contents_of_place hPlace').trans hx'⟩

theorem concur_contents {t : TableName} {i i' : UInt32} (hSame : SameReferent r r' t i i') :
    Concur (c.contents t i) (c'.contents t i') := by
  obtain ⟨x, hx, hx'⟩ := hSame
  exact ⟨x, h.contents_eq_ok hx, h'.contents_eq_ok hx'⟩

theorem compare_congr {t : TableName} {i j i' j' : UInt32} (hi : SameReferent r r' t i i')
    (hj : SameReferent r r' t j j') : compare i j = compare i' j' := by
  obtain ⟨x, hx, hx'⟩ := hi
  obtain ⟨y, hy, hy'⟩ := hj
  rw [UInt32.compare_eq_toNat_compare_toNat, UInt32.compare_eq_toNat_compare_toNat,
    h.orders.compare_eq h.wellFormed hx hy, h'.orders.compare_eq h'.wellFormed hx' hy']

theorem concur_fields {fields fields' : List FieldDefinition}
    (hAgrees : List.Forall₂ (fun f f' => p.SameContents p' .field f.field f'.field ∧
      f.access = f'.access) fields fields')
    {declared stored declared' stored' : List FieldEntry}
    (hStored : List.Forall₂ (FieldStored r.narrow) fields declared)
    (hStored' : List.Forall₂ (FieldStored r'.narrow) fields' declared')
    (hSorts : Sorts compareFields declared stored)
    (hSorts' : Sorts compareFields declared' stored') :
    Concur (stored.mapM c.fieldEntryTexts) (stored'.mapM c'.fieldEntryTexts) := by
  have hDeclared : List.Forall₂ (fun f f' => SameReferent r r' .field f.field f'.field ∧
      f.access = f'.access) declared declared' := by
    refine Pairing.square hAgrees hStored hStored' ?_
    rintro f f' entry entry' ⟨hSame, hAccess⟩ hEntry hEntry'
    exact ⟨sameReferent h h' hSame hEntry.field hEntry'.field,
      hEntry.access.trans (hAccess.trans hEntry'.access.symm)⟩
  have hSorted := hSorts.forall₂ hSorts' hDeclared
    (by
      rintro a b a' b' ⟨ha, hAccess⟩ ⟨hb, hAccess'⟩
      rw [compareFields, compareFields, compare_congr h h' ha hb, hAccess, hAccess'])
    (fun a _ b _ => eq_of_compareFields)
  refine concur_mapM (hSorted.imp ?_)
  rintro f f' ⟨hSame, hAccess⟩
  rw [fieldEntryTexts, fieldEntryTexts, hAccess]
  exact (concur_contents h h' hSame).bind fun _ => concur_ok _

theorem concur_methods {methods methods' : List MethodDefinition}
    (hAgrees : List.Forall₂ (fun m m' => m.access = m'.access ∧
      m.body.Agrees (p.SameContents p') m'.body) methods methods')
    {declared stored declared' stored' : List MethodEntry}
    (hStored : List.Forall₂ (MethodStored r.narrow) methods declared)
    (hStored' : List.Forall₂ (MethodStored r'.narrow) methods' declared')
    (hCode : declared.Pairwise fun a b => a.codeOffset < b.codeOffset)
    (hCode' : declared'.Pairwise fun a b => a.codeOffset < b.codeOffset)
    (hSorts : Sorts compareMethods declared stored)
    (hSorts' : Sorts compareMethods declared' stored') :
    Concur (stored.mapM c.methodEntryTexts) (stored'.mapM c'.methodEntryTexts) := by
  have hDeclared : List.Forall₂ (fun m m' => SameReferent r r' .method m.method m'.method ∧
      m.access = m'.access ∧ Concur (m.code.mapM c.codeTexts) (m'.code.mapM c'.codeTexts))
      declared declared' := by
    refine Pairing.square hAgrees hStored hStored' ?_
    rintro m m' entry entry' ⟨hAccess, hBody⟩ hEntry hEntry'
    obtain ⟨code, hSome, -, hStores⟩ := hEntry.code
    obtain ⟨code', hSome', -, hStores'⟩ := hEntry'.code
    refine ⟨sameReferent h h' hBody.method hEntry.method hEntry'.method,
      hEntry.access.trans (hAccess.trans hEntry'.access.symm), ?_⟩
    rw [hSome, hSome']
    exact concur_optionMapM (concur_code h h' hBody hStores hStores')
  -- code stands in the order of declaration, so its offsets compare as the positions do
  have hSorted := hSorts.forall₂ hSorts' (Pairing.positions hDeclared)
    (by
      rintro a b a' b' ⟨⟨ha, hAccess, -⟩, i, hi, hi'⟩ ⟨⟨hb, hAccess', -⟩, j, hj, hj'⟩
      rw [compareMethods, compareMethods, compare_congr h h' ha hb, hAccess, hAccess',
        ← compare_codeOffset hCode hi hj, ← compare_codeOffset hCode' hi' hj'])
    (fun a ha b hb => eq_of_compareMethods hCode' ha hb)
  refine concur_mapM (hSorted.imp ?_)
  rintro m m' ⟨⟨hSame, hAccess, hTexts⟩, -⟩
  rw [methodEntryTexts, methodEntryTexts, hAccess]
  exact (concur_contents h h' hSame).bind fun _ => hTexts.bind fun _ => concur_ok _

theorem concur_members {definition definition' : ClassDefinition}
    (hAgrees : definition.Agrees (p.SameContents p') definition')
    {declared stored declared' stored' : ClassData}
    (hStored : MembersStored r.narrow definition declared)
    (hStored' : MembersStored r'.narrow definition' declared') (hSorts : SortsMembers declared stored)
    (hSorts' : SortsMembers declared' stored') :
    Concur (c.membersTexts stored) (c'.membersTexts stored') := by
  refine (concur_fields h h' hAgrees.staticFields hStored.staticFields hStored'.staticFields
    hSorts.staticFields hSorts'.staticFields).bind fun _ => ?_
  refine (concur_fields h h' hAgrees.instanceFields hStored.instanceFields hStored'.instanceFields
    hSorts.instanceFields hSorts'.instanceFields).bind fun _ => ?_
  refine (concur_methods h h' hAgrees.directMethods hStored.directMethods hStored'.directMethods
    hStored.directCode hStored'.directCode hSorts.directMethods hSorts'.directMethods).bind
    fun _ => ?_
  refine (concur_methods h h' hAgrees.virtualMethods hStored.virtualMethods hStored'.virtualMethods
    hStored.virtualCode hStored'.virtualCode hSorts.virtualMethods hSorts'.virtualMethods).bind
    fun _ => ?_
  exact concur_ok _

theorem concur_optional {t : TableName} {slot? slot?' : Option (Slot t)}
    (hSame : List.Forall₂ (p.SameContents p' t) slot?.toList slot?'.toList) {i i' : UInt32}
    (hIndex : slot?.elim (i = noIndex) fun slot => r.place? slot = some i.toNat)
    (hIndex' : slot?'.elim (i' = noIndex) fun slot => r'.place? slot = some i'.toNat) :
    Concur (c.optional t i) (c'.optional t i') := by
  cases slot? with
  | none =>
    cases slot?' with
    | none =>
      rw [optional, optional, if_pos (show i = noIndex from hIndex),
        if_pos (show i' = noIndex from hIndex')]
      exact concur_ok none
    | some slot' => cases hSame
  | some slot =>
    cases slot?' with
    | none => cases hSame
    | some slot' =>
      have hReferent := sameReferent h h' (List.forall₂_cons.mp hSame).1 hIndex hIndex'
      have ⟨x, hx, hx'⟩ := hReferent
      rw [optional, optional, if_neg (h.ne_noIndex hx), if_neg (h'.ne_noIndex hx')]
      exact (concur_contents h h' hReferent).map some

/-- Definitions that agree read the same, whatever else their containers hold. -/
theorem concur_class {definition definition' : ClassDefinition}
    (hAgrees : definition.Agrees (p.SameContents p') definition') {cls cls' : ClassDef}
    (hStored : ClassStored r.narrow definition cls)
    (hStored' : ClassStored r'.narrow definition' cls') :
    Concur (c.classTexts cls) (c'.classTexts cls') := by
  have hSuperclass := concur_optional h h' hAgrees.superclass
    (remapsOption_iff.mp hStored.superclass) (remapsOption_iff.mp hStored'.superclass)
  have hSourceFile := concur_optional h h' hAgrees.sourceFile
    (remapsOption_iff.mp hStored.sourceFile) (remapsOption_iff.mp hStored'.sourceFile)
  have hInterfaces : Concur (cls.interfaces.mapM fun index => c.typeText index.toUInt32)
      (cls'.interfaces.mapM fun index => c'.typeText index.toUInt32) := by
    apply concur_mapM
    refine Pairing.square hAgrees.interfaces hStored.interfaces hStored'.interfaces ?_
    intro slot slot' index index' hSame hIndex hIndex'
    exact concur_contents h h' (sameReferent h h' hSame hIndex hIndex')
  have hMembers : Concur (cls.data.mapM c.membersTexts) (cls'.data.mapM c'.membersTexts) := by
    obtain ⟨declared, data, hData, hMembers, hSorts, -⟩ := hStored.members
    obtain ⟨declared', data', hData', hMembers', hSorts', -⟩ := hStored'.members
    rw [hData, hData']
    exact concur_optionMapM (concur_members h h' hAgrees hMembers hMembers' hSorts hSorts')
  rw [classTexts, classTexts, hStored.access, hStored'.access, hAgrees.access]
  refine (concur_contents h h' (sameReferent h h' hAgrees.type hStored.type hStored'.type)).bind
    fun _ => ?_
  refine hSuperclass.bind fun _ => hInterfaces.bind fun _ => hSourceFile.bind fun _ => ?_
  exact hMembers.bind fun _ => concur_ok _

end Container.Displays

end DexForge
