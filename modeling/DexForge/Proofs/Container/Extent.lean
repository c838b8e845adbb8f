import DexForge.Proofs.Container.Consistency

/-! # The extent of a loaded container

Offsets and counts of a file are words that anyone may have written. Whatever the loader accepts
lies inside the file all the same: every section, list, text, class data item and code item, each
with as many entries as its own count announces.
-/
set_option autoImplicit false

namespace DexForge

open LittleEndian

/-- Numbers that stand one behind the other, from a position to the one behind the last of them. -/
inductive Uleb128.Row (bytes : Bytes) : Nat → List UInt32 → Nat → Prop where
  | nil (i : Nat) : Row bytes i [] i
  | cons {i next stop : Nat} {value : UInt32} {values : List UInt32}
      (head : decodeAt bytes i = (some value, next)) (tail : Row bytes next values stop) :
      Row bytes i (value :: values) stop

/-- The word at `offset` is the number of the entries behind it, which take `stride` bytes each. -/
structure CountedAt (bytes : Bytes) (offset stride count : Nat) : Prop where
  announced : ∃ size, uint32At? bytes offset = some size ∧ size.toNat = count
  inside : offset + 4 + count * stride ≤ bytes.size

def TypeListAt (bytes : Bytes) (offset : UInt32) (types : List UInt16) : Prop :=
  if offset = 0 then types = [] else CountedAt bytes offset.toNat 2 types.length

structure Section.Spans (bytes : Bytes) (s : Section) (stride count : Nat) : Prop where
  announced : s.size.toNat = count
  inside : s.size ≠ 0 → s.offset.toNat + count * stride ≤ bytes.size
  bounded : count * stride ≤ bytes.size

/-- A text behind the number of its units, which is less than the number of bytes behind it. -/
structure TextAt (bytes : Bytes) (offset : Nat) (text : String) (start stop : Nat) : Prop where
  announced : ∃ units, Uleb128.decodeAt bytes offset = (some units, start) ∧
    units.toNat = Utf16.length text
  read : Mutf8.decodeAt bytes start = some (text, stop)
  bounded : offset < start ∧ start + Utf16.length text < stop
  inside : stop ≤ bytes.size

def FieldEntry.numbers : UInt32 → List FieldEntry → List UInt32
  | _, [] => []
  | last, f :: fields => (f.field - last) :: f.access.bits :: numbers f.field fields

def MethodEntry.numbers : UInt32 → List MethodEntry → List UInt32
  | _, [] => []
  | last, m :: methods =>
    (m.method - last) :: m.access.bits :: m.codeOffset :: numbers m.method methods

namespace ClassData

def counts (d : ClassData) : List Nat :=
  [d.staticFields.length, d.instanceFields.length, d.directMethods.length, d.virtualMethods.length]

def numbers (d : ClassData) : List UInt32 :=
  FieldEntry.numbers 0 d.staticFields ++ (FieldEntry.numbers 0 d.instanceFields ++
    (MethodEntry.numbers 0 d.directMethods ++ MethodEntry.numbers 0 d.virtualMethods))

/-- Four counts from `offset` to `start` and the numbers of the members from there to `stop`. -/
structure Spans (bytes : Bytes) (offset start stop : Nat) (d : ClassData) : Prop where
  announced : ∃ counts, Uleb128.Row bytes offset counts start ∧ counts.map UInt32.toNat = d.counts
  members : Uleb128.Row bytes start d.numbers stop
  bounded : start + (2 * d.fields.length + 3 * d.methods.length) ≤ stop
  inside : stop ≤ bytes.size

end ClassData

/-- A code item has a header of sixteen bytes, the last word of which counts its units. -/
def MethodEntry.CodeAt (bytes : Bytes) (m : MethodEntry) : Prop :=
  match m.code with
  | none => m.codeOffset = 0
  | some code => m.codeOffset ≠ 0 ∧ code.offset = m.codeOffset ∧
      CountedAt bytes (m.codeOffset.toNat + 12) 2 code.units.length

structure ClassDef.Enclosed (bytes : Bytes) (position : Nat) (d : ClassDef) : Prop where
  interfacesOffset : uint32At? bytes (position + 12) = some d.interfacesOffset
  interfaces : TypeListAt bytes d.interfacesOffset d.interfaces
  dataOffset : uint32At? bytes (position + 24) = some d.dataOffset
  data : match d.data with
    | none => d.dataOffset = 0
    | some data => d.dataOffset ≠ 0 ∧
        (∃ start stop, data.Spans bytes d.dataOffset.toNat start stop) ∧
        ∀ m ∈ data.methods, m.CodeAt bytes

structure Container.Enclosed (c : Container) : Prop where
  header : headerSize ≤ c.bytes.size ∧ Header.decode c.bytes = c.header
  stringIds : c.header.stringIds.Spans c.bytes 4 c.strings.size
  typeIds : c.header.typeIds.Spans c.bytes 4 c.types.size
  protoIds : c.header.protoIds.Spans c.bytes 12 c.protos.size
  fieldIds : c.header.fieldIds.Spans c.bytes 8 c.fields.size
  methodIds : c.header.methodIds.Spans c.bytes 8 c.methods.size
  classDefs : c.header.classDefs.Spans c.bytes 32 c.classes.size
  strings : ∀ k text, c.strings[k]? = some text → ∃ offset start stop,
    uint32At? c.bytes (c.header.stringIds.offset.toNat + k * 4) = some offset ∧
      TextAt c.bytes offset.toNat text start stop
  params : ∀ k proto, c.protos[k]? = some proto →
    uint32At? c.bytes (c.header.protoIds.offset.toNat + k * 12 + 8) = some proto.paramsOffset ∧
      TypeListAt c.bytes proto.paramsOffset proto.params
  classes : ∀ k d, c.classes[k]? = some d →
    ClassDef.Enclosed c.bytes (c.header.classDefs.offset.toNat + k * 32) d
  map : if c.header.mapOffset = 0 then c.map = #[]
    else CountedAt c.bytes c.header.mapOffset.toNat MapItem.byteSize c.map.size

namespace Uleb128.Row

variable {bytes : Bytes} {i j stop : Nat} {values values' : List UInt32}

theorem append (h : Row bytes i values j) (h' : Row bytes j values' stop) :
    Row bytes i (values ++ values') stop := by
  induction h with
  | nil => exact h'
  | cons head _ ih => exact .cons head (ih h')

theorem length_le (h : Row bytes i values stop) : i + values.length ≤ stop := by
  induction h with
  | nil => exact Nat.le_refl _
  | cons head _ ih =>
    obtain ⟨hLess, -⟩ := bounds_of_decodeAt head
    rw [List.length_cons]
    omega

theorem stop_le (h : Row bytes i values stop) (hStart : i ≤ bytes.size) : stop ≤ bytes.size := by
  induction h with
  | nil => exact hStart
  | cons head _ ih => exact ih (bounds_of_decodeAt head).2

end Uleb128.Row

theorem FieldEntry.length_numbers (last : UInt32) (fields : List FieldEntry) :
    (numbers last fields).length = 2 * fields.length := by
  induction fields generalizing last with
  | nil => rfl
  | cons f fields ih =>
    simp only [numbers, List.length_cons, ih]
    omega

theorem MethodEntry.length_numbers (last : UInt32) (methods : List MethodEntry) :
    (numbers last methods).length = 3 * methods.length := by
  induction methods generalizing last with
  | nil => rfl
  | cons m methods ih =>
    simp only [numbers, List.length_cons, ih]
    omega

theorem ClassData.length_numbers (d : ClassData) :
    d.numbers.length = 2 * d.fields.length + 3 * d.methods.length := by
  simp only [numbers, fields, methods, List.length_append, FieldEntry.length_numbers,
    MethodEntry.length_numbers]
  omega

namespace Loader

open DexForge.Except

variable {bytes : Bytes} {item : ItemName} {offset next : Nat}

theorem of_uint32 {w : UInt32} (h : uint32 bytes item offset = .ok w) :
    uint32At? bytes offset = some w ∧ offset + 4 ≤ bytes.size := by
  rw [uint32] at h
  split at h
  · next _ hWord =>
    cases h
    exact ⟨hWord, (holdsAt_of_uint32At? hWord).stop_le (by simp [ofUInt32])⟩
  · cases h

theorem of_uleb {value : UInt32} (h : uleb bytes offset = .ok (value, next)) :
    Uleb128.decodeAt bytes offset = (some value, next) := by
  rw [uleb] at h
  split at h
  · next hRead =>
    cases h
    exact hRead
  · cases h

theorem of_within {length : Nat} {u : Unit} (h : within bytes item offset length = .ok u) :
    offset + length ≤ bytes.size := by
  rw [within] at h
  split at h
  · assumption
  · cases h

theorem of_entries {α : Type} {read : Nat → Load α} {stride count : Nat} {done result : Array α}
    (h : entries read stride count offset done = .ok result) :
    ∃ xs : List α, result = done ++ xs.toArray ∧
      ∀ k x, xs[k]? = some x → read (offset + k * stride) = .ok x := by
  induction count generalizing offset done with
  | zero =>
    cases h
    exact ⟨[], by simp, by simp⟩
  | succ count ih =>
    rw [entries] at h
    split at h
    · next x hx =>
      obtain ⟨xs, rfl, hRead⟩ := ih h
      refine ⟨x :: xs, by simp, ?_⟩
      intro k y hy
      cases k with
      | zero =>
        cases hy
        rwa [Nat.zero_mul]
      | succ k =>
        have hPosition : offset + (k + 1) * stride = offset + stride + k * stride := by ring
        rw [hPosition]
        exact hRead k y hy
    · cases h

theorem of_table {α : Type} {read : Nat → Load α} {stride : Nat} {s : Section} {result : Array α}
    (h : table s stride read = .ok result) : result.size = s.size.toNat ∧
      ∀ k x, result[k]? = some x → read (s.offset.toNat + k * stride) = .ok x := by
  have hSize : result.size = s.size.toNat := by simpa using size_of_entries h
  obtain ⟨xs, rfl, hRead⟩ := of_entries h
  exact ⟨hSize, by simpa using hRead⟩

theorem spans_of_table {α : Type} {read : Nat → Load α} {stride : Nat} {s : Section}
    {result : Array α} (hRead : ∀ i x, read i = .ok x → i + stride ≤ bytes.size)
    (h : table s stride read = .ok result) : s.Spans bytes stride result.size := by
  obtain ⟨hSize, hEntries⟩ := of_table h
  have hInside : s.size ≠ 0 → s.offset.toNat + result.size * stride ≤ bytes.size := by
    intro hNonempty
    obtain ⟨last, hLast⟩ : ∃ last, result.size = last + 1 := by
      apply Nat.exists_eq_succ_of_ne_zero
      rw [hSize]
      exact fun hZero => hNonempty (UInt32.toNat_inj.mp hZero)
    have hInside := hRead _ _ (hEntries last result[last] (Array.getElem?_eq_getElem (by omega)))
    rw [hLast, Nat.add_mul]
    omega
  refine ⟨hSize.symm, hInside, ?_⟩
  by_cases hEmpty : s.size = 0
  · rw [hSize, hEmpty]
    simp
  · exact Nat.le_trans (Nat.le_add_left _ _) (hInside hEmpty)

theorem of_typeList {offset : UInt32} {types : List UInt16}
    (h : typeList bytes offset = .ok types) : TypeListAt bytes offset types := by
  rw [typeList] at h
  rw [TypeListAt]
  split at h
  · next hZero =>
    cases h
    rw [if_pos hZero]
  · next hOffset =>
    rw [if_neg hOffset]
    obtain ⟨size, hSize, h⟩ := bind_eq_ok_iff.mp h
    obtain ⟨u, hWithin, h⟩ := bind_eq_ok_iff.mp h
    obtain ⟨result, hEntries, h⟩ := bind_eq_ok_iff.mp h
    cases h
    have hCount : result.toList.length = size.toNat := by simpa using size_of_entries hEntries
    refine ⟨⟨size, (of_uint32 hSize).1, hCount.symm⟩, ?_⟩
    rw [hCount]
    exact of_within hWithin

theorem of_stringData {offset : UInt32} {text : String} (h : stringData bytes offset = .ok text) :
    ∃ start stop, TextAt bytes offset.toNat text start stop := by
  obtain ⟨⟨units, start⟩, hUnits, h⟩ := bind_eq_ok_iff.mp h
  dsimp only at h
  split at h
  · next text' stop hRead =>
    split at h
    · next hLength =>
      cases h
      have hUnits := of_uleb hUnits
      have hSpells := Mutf8.spells_of_decodeAt hRead
      have hRoom := Nat.lt_of_le_of_lt (Nat.add_le_add_left (Mutf8.length_le_encode text) start)
        hSpells.room
      exact ⟨start, stop, ⟨units, hUnits, hLength.symm⟩, hRead,
        ⟨(Uleb128.bounds_of_decodeAt hUnits).1, hRoom⟩, hSpells.stop_le⟩
    · cases h
  · cases h

theorem of_protoId {p : ProtoId} (h : protoId bytes offset = .ok p) :
    offset + 12 ≤ bytes.size ∧ uint32At? bytes (offset + 8) = some p.paramsOffset ∧
      TypeListAt bytes p.paramsOffset p.params := by
  obtain ⟨paramsOffset, hParams, h⟩ := bind_eq_ok_iff.mp h
  obtain ⟨shorty, -, h⟩ := bind_eq_ok_iff.mp h
  obtain ⟨returns, -, h⟩ := bind_eq_ok_iff.mp h
  obtain ⟨params, hList, h⟩ := bind_eq_ok_iff.mp h
  cases h
  obtain ⟨hWord, hInside⟩ := of_uint32 hParams
  exact ⟨hInside, hWord, of_typeList hList⟩

theorem of_memberId {item : ItemName} {m : MemberId} (h : memberId bytes item offset = .ok m) :
    offset + 8 ≤ bytes.size := by
  obtain ⟨owner, -, h⟩ := bind_eq_ok_iff.mp h
  obtain ⟨descriptor, -, h⟩ := bind_eq_ok_iff.mp h
  obtain ⟨name, hName, -⟩ := bind_eq_ok_iff.mp h
  exact (of_uint32 hName).2

theorem of_codeItem {offset : UInt32} {code : CodeItem} (h : codeItem bytes offset = .ok code) :
    code.offset = offset ∧ CountedAt bytes (offset.toNat + 12) 2 code.units.length := by
  obtain ⟨size, hSize, h⟩ := bind_eq_ok_iff.mp h
  obtain ⟨u, hWithin, h⟩ := bind_eq_ok_iff.mp h
  obtain ⟨registers, -, h⟩ := bind_eq_ok_iff.mp h
  obtain ⟨ins, -, h⟩ := bind_eq_ok_iff.mp h
  obtain ⟨outs, -, h⟩ := bind_eq_ok_iff.mp h
  obtain ⟨tries, -, h⟩ := bind_eq_ok_iff.mp h
  obtain ⟨debugInfo, -, h⟩ := bind_eq_ok_iff.mp h
  obtain ⟨units, hUnits, h⟩ := bind_eq_ok_iff.mp h
  cases h
  have hCount : units.toList.length = size.toNat := by simpa using size_of_entries hUnits
  refine ⟨rfl, ⟨size, (of_uint32 hSize).1, hCount.symm⟩, ?_⟩
  rw [hCount]
  exact of_within hWithin

theorem add_sub_last (last step : UInt32) : last + step - last = step := by
  rw [UInt32.add_comm, UInt32.add_sub_cancel]

theorem of_fieldEntries {count : Nat} {last : UInt32} {done : Array FieldEntry}
    {fields : List FieldEntry}
    (h : fieldEntries bytes count last offset done = .ok (fields, next)) :
    ∃ new, fields = done.toList ++ new ∧ new.length = count ∧
      Uleb128.Row bytes offset (FieldEntry.numbers last new) next := by
  induction count generalizing last offset done with
  | zero =>
    cases h
    exact ⟨[], by simp, rfl, .nil _⟩
  | succ count ih =>
    obtain ⟨⟨step, offset₁⟩, hStep, h⟩ := bind_eq_ok_iff.mp h
    obtain ⟨⟨access, offset₂⟩, hAccess, h⟩ := bind_eq_ok_iff.mp h
    obtain ⟨new, rfl, hLength, hRow⟩ := ih h
    refine ⟨⟨last + step, ⟨access⟩⟩ :: new, by simp, by simp [hLength], ?_⟩
    rw [FieldEntry.numbers, add_sub_last]
    exact .cons (of_uleb hStep) (.cons (of_uleb hAccess) hRow)

theorem of_methodEntries {count : Nat} {last : UInt32} {done : Array MethodEntry}
    {methods : List MethodEntry}
    (h : methodEntries bytes count last offset done = .ok (methods, next)) :
    ∃ new, methods = done.toList ++ new ∧ new.length = count ∧
      Uleb128.Row bytes offset (MethodEntry.numbers last new) next ∧
      ∀ m ∈ new, m.CodeAt bytes := by
  induction count generalizing last offset done with
  | zero =>
    cases h
    exact ⟨[], by simp, rfl, .nil _, by simp⟩
  | succ count ih =>
    obtain ⟨⟨step, offset₁⟩, hStep, h⟩ := bind_eq_ok_iff.mp h
    obtain ⟨⟨access, offset₂⟩, hAccess, h⟩ := bind_eq_ok_iff.mp h
    obtain ⟨⟨codeOffset, offset₃⟩, hOffset, h⟩ := bind_eq_ok_iff.mp h
    obtain ⟨code, hCode, h⟩ : ∃ code,
        MethodEntry.CodeAt bytes ⟨last + step, ⟨access⟩, codeOffset, code⟩ ∧
        methodEntries bytes count (last + step) offset₃
          (done.push ⟨last + step, ⟨access⟩, codeOffset, code⟩) = .ok (methods, next) := by
      dsimp only at h
      split at h
      · next hZero => exact ⟨none, hZero, h⟩
      · next hNonzero =>
        obtain ⟨code, hCode, h⟩ := bind_eq_ok_iff.mp h
        obtain ⟨item, hItem, rfl⟩ := map_eq_ok_iff.mp hCode
        exact ⟨some item, ⟨hNonzero, of_codeItem hItem⟩, h⟩
    obtain ⟨new, rfl, hLength, hRow, hNew⟩ := ih h
    refine ⟨⟨last + step, ⟨access⟩, codeOffset, code⟩ :: new, by simp, by simp [hLength], ?_,
      List.forall_mem_cons.mpr ⟨hCode, hNew⟩⟩
    rw [MethodEntry.numbers, add_sub_last]
    exact .cons (of_uleb hStep) (.cons (of_uleb hAccess) (.cons (of_uleb hOffset) hRow))

theorem of_classData {offset : UInt32} {d : ClassData} (h : classData bytes offset = .ok d) :
    (∃ start stop, d.Spans bytes offset.toNat start stop) ∧ ∀ m ∈ d.methods, m.CodeAt bytes := by
  obtain ⟨⟨statics, offset₁⟩, hStatics, h⟩ := bind_eq_ok_iff.mp h
  obtain ⟨⟨instances, offset₂⟩, hInstances, h⟩ := bind_eq_ok_iff.mp h
  obtain ⟨⟨directs, offset₃⟩, hDirects, h⟩ := bind_eq_ok_iff.mp h
  obtain ⟨⟨virtuals, start⟩, hVirtuals, h⟩ := bind_eq_ok_iff.mp h
  obtain ⟨⟨staticFields, offset₄⟩, hStaticFields, h⟩ := bind_eq_ok_iff.mp h
  obtain ⟨⟨instanceFields, offset₅⟩, hInstanceFields, h⟩ := bind_eq_ok_iff.mp h
  obtain ⟨⟨directMethods, offset₆⟩, hDirectMethods, h⟩ := bind_eq_ok_iff.mp h
  obtain ⟨⟨virtualMethods, stop⟩, hVirtualMethods, h⟩ := bind_eq_ok_iff.mp h
  cases h
  obtain ⟨_, rfl, hStaticCount, hStaticRow⟩ := of_fieldEntries hStaticFields
  obtain ⟨_, rfl, hInstanceCount, hInstanceRow⟩ := of_fieldEntries hInstanceFields
  obtain ⟨_, rfl, hDirectCount, hDirectRow, hDirectCode⟩ := of_methodEntries hDirectMethods
  obtain ⟨_, rfl, hVirtualCount, hVirtualRow, hVirtualCode⟩ := of_methodEntries hVirtualMethods
  have hCounts : Uleb128.Row bytes offset.toNat [statics, instances, directs, virtuals] start :=
    .cons (of_uleb hStatics) (.cons (of_uleb hInstances) (.cons (of_uleb hDirects)
      (.cons (of_uleb hVirtuals) (.nil start))))
  have hMembers := hStaticRow.append (hInstanceRow.append (hDirectRow.append hVirtualRow))
  have hStart := (Uleb128.bounds_of_decodeAt (of_uleb hVirtuals)).2
  refine ⟨⟨start, stop, ⟨_, hCounts, ?_⟩, hMembers, ?_, hMembers.stop_le hStart⟩, ?_⟩
  · simp [ClassData.counts, hStaticCount, hInstanceCount, hDirectCount, hVirtualCount]
  · rw [← ClassData.length_numbers]
    exact hMembers.length_le
  · rw [ClassData.methods, List.forall_mem_append]
    exact ⟨hDirectCode, hVirtualCode⟩

theorem of_classDef {d : ClassDef} (h : classDef bytes offset = .ok d) :
    offset + 32 ≤ bytes.size ∧ d.Enclosed bytes offset := by
  obtain ⟨interfacesOffset, hInterfaces, h⟩ := bind_eq_ok_iff.mp h
  obtain ⟨dataOffset, hData, h⟩ := bind_eq_ok_iff.mp h
  obtain ⟨type, -, h⟩ := bind_eq_ok_iff.mp h
  obtain ⟨access, -, h⟩ := bind_eq_ok_iff.mp h
  obtain ⟨superclass, -, h⟩ := bind_eq_ok_iff.mp h
  obtain ⟨sourceFile, -, h⟩ := bind_eq_ok_iff.mp h
  obtain ⟨annotations, -, h⟩ := bind_eq_ok_iff.mp h
  obtain ⟨staticValues, hLast, h⟩ := bind_eq_ok_iff.mp h
  obtain ⟨interfaces, hList, h⟩ := bind_eq_ok_iff.mp h
  refine ⟨(of_uint32 hLast).2, ?_⟩
  dsimp only at h
  split at h
  · next hZero =>
    cases h
    exact ⟨(of_uint32 hInterfaces).1, of_typeList hList, (of_uint32 hData).1, hZero⟩
  · next hNonzero =>
    obtain ⟨data, hRead, h⟩ := bind_eq_ok_iff.mp h
    obtain ⟨members, hMembers, rfl⟩ := map_eq_ok_iff.mp hRead
    cases h
    exact ⟨(of_uint32 hInterfaces).1, of_typeList hList, (of_uint32 hData).1, hNonzero,
      of_classData hMembers⟩

theorem of_mapList {offset : UInt32} {items : Array MapItem}
    (h : mapList bytes offset = .ok items) : if offset = 0 then items = #[] else
      CountedAt bytes offset.toNat MapItem.byteSize items.size := by
  rw [mapList] at h
  split at h
  · next hZero =>
    cases h
    rw [if_pos hZero]
  · next hOffset =>
    rw [if_neg hOffset]
    obtain ⟨size, hSize, h⟩ := bind_eq_ok_iff.mp h
    obtain ⟨u, hWithin, h⟩ := bind_eq_ok_iff.mp h
    have hCount : items.size = size.toNat := by simpa using size_of_entries h
    refine ⟨⟨size, (of_uint32 hSize).1, hCount.symm⟩, ?_⟩
    rw [hCount]
    exact of_within hWithin

end Loader

namespace Container

open DexForge.Except Loader

/-- Nothing that the loader accepts reaches outside the file. -/
theorem enclosed_of_load {bytes : Bytes} {c : Container} (h : load bytes = .ok c) :
    c.bytes = bytes ∧ c.Enclosed := by
  obtain ⟨header, hHeader, h⟩ := bind_eq_ok_iff.mp h
  obtain ⟨strings, hStrings, h⟩ := bind_eq_ok_iff.mp h
  obtain ⟨types, hTypes, h⟩ := bind_eq_ok_iff.mp h
  obtain ⟨protos, hProtos, h⟩ := bind_eq_ok_iff.mp h
  obtain ⟨fields, hFields, h⟩ := bind_eq_ok_iff.mp h
  obtain ⟨methods, hMethods, h⟩ := bind_eq_ok_iff.mp h
  obtain ⟨classes, hClasses, h⟩ := bind_eq_ok_iff.mp h
  obtain ⟨map, hMap, h⟩ := bind_eq_ok_iff.mp h
  cases h
  have hAuthentic := checkedHeader_eq_ok_iff.mp hHeader
  refine ⟨rfl, ?_⟩
  exact {
    header := ⟨hAuthentic.whole, hAuthentic.decoded⟩
    stringIds := spans_of_table (fun i text hText => by
      obtain ⟨offset, hOffset, -⟩ := bind_eq_ok_iff.mp hText
      exact (of_uint32 hOffset).2) hStrings
    typeIds := spans_of_table (fun i name hName => (of_uint32 hName).2) hTypes
    protoIds := spans_of_table (fun i proto hProto => (of_protoId hProto).1) hProtos
    fieldIds := spans_of_table (fun i field hField => of_memberId hField) hFields
    methodIds := spans_of_table (fun i method hMethod => of_memberId hMethod) hMethods
    classDefs := spans_of_table (fun i d hd => (of_classDef hd).1) hClasses
    strings k text hText := by
      obtain ⟨offset, hOffset, hData⟩ := bind_eq_ok_iff.mp ((of_table hStrings).2 k text hText)
      obtain ⟨start, stop, hAt⟩ := of_stringData hData
      exact ⟨offset, start, stop, (of_uint32 hOffset).1, hAt⟩
    params k proto hProto := (of_protoId ((of_table hProtos).2 k proto hProto)).2
    classes k d hd := (of_classDef ((of_table hClasses).2 k d hd)).2
    map := of_mapList hMap }

theorem enclosed_nameless : ∃ c, load nameless = .ok c ∧ c.types.size = 1 ∧ c.bytes = nameless ∧
    c.Enclosed := by
  obtain ⟨header, hLoad⟩ := load_nameless
  exact ⟨_, hLoad, rfl, enclosed_of_load hLoad⟩

end Container

end DexForge
