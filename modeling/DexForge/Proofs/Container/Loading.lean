import DexForge.Container.Encoding
import DexForge.Container.Loader
import DexForge.Proofs.Bytes.Mutf8
import DexForge.Proofs.Bytes.Uleb128
import DexForge.Proofs.Container.Header
import DexForge.Proofs.Control.Except

/-! # Items are read back

Each item that stands in a file as its writer encodes it is what the reader of its kind finds there.
-/
set_option autoImplicit false

namespace DexForge.Loader

open LittleEndian

variable {bytes : Bytes}

theorem uint16_of_holdsAt {offset : Nat} {w : UInt16} (h : HoldsAt bytes offset (ofUInt16 w))
    (item : ItemName) : uint16 bytes item offset = .ok w := by
  rw [uint16, uint16At?_of_holdsAt h]

theorem uint32_of_holdsAt {offset : Nat} {w : UInt32} (h : HoldsAt bytes offset (ofUInt32 w))
    (item : ItemName) : uint32 bytes item offset = .ok w := by
  rw [uint32, uint32At?_of_holdsAt h]

theorem uleb_of_holdsAt {offset : Nat} {value : UInt32}
    (h : HoldsAt bytes offset (Uleb128.encode value)) :
    uleb bytes offset = .ok (value, offset + (Uleb128.encode value).length) := by
  rw [uleb, Uleb128.decodeAt_of_holdsAt h]

theorem within_of_le {item : ItemName} {offset length : Nat} (h : offset + length ≤ bytes.size) :
    within bytes item offset length = .ok () := by
  rw [within, if_pos h]

theorem entries_eq_ok {α : Type} {read : Nat → Load α} {stride offset : Nat} {xs : List α}
    (h : ∀ k x, xs[k]? = some x → read (offset + k * stride) = .ok x) (done : Array α) :
    entries read stride xs.length offset done = .ok (done ++ xs.toArray) := by
  induction xs generalizing offset done with
  | nil => simp [entries]
  | cons x xs ih =>
    have hHead : read offset = .ok x := by simpa using h 0 x rfl
    have hTail : ∀ k y, xs[k]? = some y → read (offset + stride + k * stride) = .ok y := by
      intro k y hk
      have hPosition : offset + stride + k * stride = offset + (k + 1) * stride := by
        rw [Nat.add_mul]; omega
      rw [hPosition]
      exact h (k + 1) y (by simpa using hk)
    rw [List.length_cons, entries, hHead]
    simp only [ih hTail]
    simp

theorem table_eq_ok {α : Type} {read : Nat → Load α} {stride : Nat} {s : Section} {xs : List α}
    (hSize : s.size.toNat = xs.length)
    (h : ∀ k x, xs[k]? = some x → read (s.offset.toNat + k * stride) = .ok x) :
    table s stride read = .ok xs.toArray := by
  rw [table, hSize, entries_eq_ok h]
  simp

theorem entries_units {offset : Nat} {units : List UInt16} (item : ItemName)
    (h : HoldsAt bytes offset (units.flatMap ofUInt16)) :
    entries (uint16 bytes item) 2 units.length offset #[] = .ok units.toArray := by
  rw [entries_eq_ok fun k x hk =>
    uint16_of_holdsAt (h.flatMap_getElem? (fun _ _ => length_ofUInt16 _) hk) item]
  simp

theorem length_flatMap_ofUInt16 (units : List UInt16) :
    (units.flatMap ofUInt16).length = units.length * 2 := by
  induction units with
  | nil => rfl
  | cons u units ih =>
    rw [List.flatMap_cons, List.length_append, ih, List.length_cons, length_ofUInt16]
    omega

theorem typeList_of_holdsAt {offset : UInt32} {types : List UInt16} (hOffset : offset ≠ 0)
    (hLength : types.length < 0x100000000)
    (h : HoldsAt bytes offset.toNat (encodeTypeList types)) :
    typeList bytes offset = .ok types := by
  have hCount : (UInt32.ofNat types.length).toNat = types.length :=
    UInt32.toNat_ofNat_of_lt hLength
  have hStop := h.stop_le (by simp [encodeTypeList, ofUInt32])
  simp only [encodeTypeList, List.length_append, length_ofUInt32, length_flatMap_ofUInt16] at hStop
  have hTypes : HoldsAt bytes (offset.toNat + 4) (types.flatMap ofUInt16) := h.right
  have hWithin : offset.toNat + 4 + types.length * 2 ≤ bytes.size := by omega
  rw [typeList, if_neg hOffset]
  simp only [uint32_of_holdsAt h.left, hCount, within_of_le hWithin, entries_units _ hTypes,
    Except.ok_bind]
  rfl

theorem stringData_of_holdsAt {offset : UInt32} {text : String}
    (hLength : Utf16.length text < 0x100000000) (h : HoldsAt bytes offset.toNat (encodeText text)) :
    stringData bytes offset = .ok text := by
  have hUnits : (UInt32.ofNat (Utf16.length text)).toNat = Utf16.length text :=
    UInt32.toNat_ofNat_of_lt hLength
  rw [encodeText, List.append_assoc] at h
  simp only [stringData, uleb_of_holdsAt h.left, Except.ok_bind,
    Mutf8.decodeAt_of_holdsAt h.right, hUnits, if_true]

theorem stringId_of_holdsAt {offset : Nat} {dataOffset : UInt32} {text : String}
    (hLength : Utf16.length text < 0x100000000) (h : HoldsAt bytes offset (ofUInt32 dataOffset))
    (hData : HoldsAt bytes dataOffset.toNat (encodeText text)) :
    stringId bytes offset = .ok text := by
  simp only [stringId, uint32_of_holdsAt h, Except.ok_bind, stringData_of_holdsAt hLength hData]

theorem protoId_of_holdsAt {offset : Nat} {p : ProtoId} (h : HoldsAt bytes offset p.encode)
    (hParams : typeList bytes p.paramsOffset = .ok p.params) : protoId bytes offset = .ok p := by
  have hReturns : HoldsAt bytes (offset + 4) (ofUInt32 p.returns) := h.left.right
  have hOffset : HoldsAt bytes (offset + 8) (ofUInt32 p.paramsOffset) := h.right
  simp only [protoId, uint32_of_holdsAt h.left.left, uint32_of_holdsAt hReturns,
    uint32_of_holdsAt hOffset, hParams, Except.ok_bind]
  rfl

theorem memberId_of_holdsAt {offset : Nat} {m : MemberId} (item : ItemName)
    (h : HoldsAt bytes offset m.encode) : memberId bytes item offset = .ok m := by
  have hDescriptor : HoldsAt bytes (offset + 2) (ofUInt16 m.descriptor) := h.left.right
  have hName : HoldsAt bytes (offset + 4) (ofUInt32 m.name) := h.right
  simp only [memberId, uint16_of_holdsAt h.left.left, uint16_of_holdsAt hDescriptor,
    uint32_of_holdsAt hName, Except.ok_bind]
  rfl

theorem codeItem_of_holdsAt {c : CodeItem} (hLength : c.units.length < 0x100000000)
    (h : HoldsAt bytes c.offset.toNat c.encode) : codeItem bytes c.offset = .ok c := by
  have hCount : (UInt32.ofNat c.units.length).toNat = c.units.length :=
    UInt32.toNat_ofNat_of_lt hLength
  have hStop := h.stop_le (by simp [CodeItem.encode, ofUInt16])
  simp only [CodeItem.encode, List.length_append, length_ofUInt16, length_ofUInt32,
    length_flatMap_ofUInt16] at hStop
  have hWithin : c.offset.toNat + 16 + c.units.length * 2 ≤ bytes.size := by omega
  have hIns : HoldsAt bytes (c.offset.toNat + 2) (ofUInt16 c.ins) := h.left.left.left.left.left.right
  have hOuts : HoldsAt bytes (c.offset.toNat + 4) (ofUInt16 c.outs) := h.left.left.left.left.right
  have hTries : HoldsAt bytes (c.offset.toNat + 6) (ofUInt16 c.tries) := h.left.left.left.right
  have hDebug : HoldsAt bytes (c.offset.toNat + 8) (ofUInt32 c.debugInfo) := h.left.left.right
  have hSize : HoldsAt bytes (c.offset.toNat + 12) (ofUInt32 (UInt32.ofNat c.units.length)) :=
    h.left.right
  have hUnits : HoldsAt bytes (c.offset.toNat + 16) (c.units.flatMap ofUInt16) := h.right
  simp only [codeItem, uint32_of_holdsAt hSize, hCount, within_of_le hWithin,
    uint16_of_holdsAt h.left.left.left.left.left.left, uint16_of_holdsAt hIns,
    uint16_of_holdsAt hOuts, uint16_of_holdsAt hTries, uint32_of_holdsAt hDebug,
    entries_units _ hUnits, Except.ok_bind]
  rfl

def encodeFieldsFrom (last : UInt32) (fields : List FieldEntry) : List UInt8 :=
  ((last :: fields.map FieldEntry.field).zip fields).flatMap fun (previous, f) =>
    ClassData.encodeField previous f

def encodeMethodsFrom (last : UInt32) (methods : List MethodEntry) : List UInt8 :=
  ((last :: methods.map MethodEntry.method).zip methods).flatMap fun (previous, m) =>
    ClassData.encodeMethod previous m

theorem encodeFieldsFrom_cons (last : UInt32) (f : FieldEntry) (fields : List FieldEntry) :
    encodeFieldsFrom last (f :: fields) =
      ClassData.encodeField last f ++ encodeFieldsFrom f.field fields := rfl

theorem encodeMethodsFrom_cons (last : UInt32) (m : MethodEntry) (methods : List MethodEntry) :
    encodeMethodsFrom last (m :: methods) =
      ClassData.encodeMethod last m ++ encodeMethodsFrom m.method methods := rfl

theorem add_sub_self (last index : UInt32) : last + (index - last) = index := by
  rw [UInt32.add_comm, UInt32.sub_add_cancel]

theorem fieldEntries_of_holdsAt {last : UInt32} {offset : Nat} {fields : List FieldEntry}
    (h : HoldsAt bytes offset (encodeFieldsFrom last fields)) (done : Array FieldEntry) :
    fieldEntries bytes fields.length last offset done =
      .ok (done.toList ++ fields, offset + (encodeFieldsFrom last fields).length) := by
  induction fields generalizing last offset done with
  | nil => simp [fieldEntries, encodeFieldsFrom]
  | cons f fields ih =>
    rw [encodeFieldsFrom_cons] at h ⊢
    have hStep := uleb_of_holdsAt h.left.left
    have hAccess := uleb_of_holdsAt h.left.right
    have hTail := h.right
    rw [ClassData.encodeField, List.length_append, ← Nat.add_assoc] at hTail
    rw [List.length_cons, fieldEntries, hStep, Except.ok_bind]
    simp only [hAccess, Except.ok_bind, add_sub_self]
    rw [ih hTail]
    simp [ClassData.encodeField, Nat.add_assoc]

theorem methodEntries_of_holdsAt {last : UInt32} {offset : Nat} {methods : List MethodEntry}
    (hCode : ∀ m ∈ methods, m.codeOffset ≠ 0 ∧
      ∃ code, m.code = some code ∧ codeItem bytes m.codeOffset = .ok code)
    (h : HoldsAt bytes offset (encodeMethodsFrom last methods)) (done : Array MethodEntry) :
    methodEntries bytes methods.length last offset done =
      .ok (done.toList ++ methods, offset + (encodeMethodsFrom last methods).length) := by
  induction methods generalizing last offset done with
  | nil => simp [methodEntries, encodeMethodsFrom]
  | cons m methods ih =>
    obtain ⟨hOffset, code, hSome, hLoad⟩ := hCode m List.mem_cons_self
    rw [encodeMethodsFrom_cons] at h ⊢
    have hStep := uleb_of_holdsAt h.left.left.left
    have hAccess := uleb_of_holdsAt h.left.left.right
    have hStart := uleb_of_holdsAt h.left.right
    have hTail := h.right
    rw [List.length_append, ← Nat.add_assoc] at hStart
    rw [ClassData.encodeMethod, List.length_append, List.length_append, ← Nat.add_assoc,
      ← Nat.add_assoc] at hTail
    rw [List.length_cons, methodEntries, hStep, Except.ok_bind]
    simp only [hAccess, hStart, Except.ok_bind, add_sub_self, if_neg hOffset, hLoad, Except.map]
    rw [ih (fun m' hm' => hCode m' (List.mem_cons_of_mem _ hm')) hTail, ← hSome]
    simp [ClassData.encodeMethod, Nat.add_assoc]

theorem encode_classData (d : ClassData) :
    d.encode = Uleb128.encode (UInt32.ofNat d.staticFields.length) ++
      (Uleb128.encode (UInt32.ofNat d.instanceFields.length) ++
      (Uleb128.encode (UInt32.ofNat d.directMethods.length) ++
      (Uleb128.encode (UInt32.ofNat d.virtualMethods.length) ++
      (encodeFieldsFrom 0 d.staticFields ++ (encodeFieldsFrom 0 d.instanceFields ++
      (encodeMethodsFrom 0 d.directMethods ++ encodeMethodsFrom 0 d.virtualMethods)))))) := by
  simp only [ClassData.encode, List.flatMap_cons, List.flatMap_nil, List.append_nil,
    List.append_assoc]
  rfl

theorem classData_of_holdsAt {offset : UInt32} {d : ClassData}
    (hStatic : d.staticFields.length < 0x100000000)
    (hInstance : d.instanceFields.length < 0x100000000)
    (hDirect : d.directMethods.length < 0x100000000)
    (hVirtual : d.virtualMethods.length < 0x100000000)
    (hCode : ∀ m ∈ d.methods, m.codeOffset ≠ 0 ∧
      ∃ code, m.code = some code ∧ codeItem bytes m.codeOffset = .ok code)
    (h : HoldsAt bytes offset.toNat d.encode) : classData bytes offset = .ok d := by
  rw [encode_classData] at h
  have hMethods := h.right.right.right.right.right.right
  have hCount : ∀ {n : Nat}, n < 0x100000000 → (UInt32.ofNat n).toNat = n :=
    fun hn => UInt32.toNat_ofNat_of_lt hn
  simp only [classData, uleb_of_holdsAt h.left, uleb_of_holdsAt h.right.left,
    uleb_of_holdsAt h.right.right.left, uleb_of_holdsAt h.right.right.right.left, Except.ok_bind,
    hCount hStatic, hCount hInstance, hCount hDirect, hCount hVirtual,
    fieldEntries_of_holdsAt h.right.right.right.right.left,
    fieldEntries_of_holdsAt h.right.right.right.right.right.left,
    methodEntries_of_holdsAt (fun m hm => hCode m (List.mem_append_left _ hm)) hMethods.left,
    methodEntries_of_holdsAt (fun m hm => hCode m (List.mem_append_right _ hm)) hMethods.right]
  rfl

theorem classDef_of_holdsAt {offset : Nat} {d : ClassDef} {data : ClassData}
    (h : HoldsAt bytes offset d.encode)
    (hInterfaces : typeList bytes d.interfacesOffset = .ok d.interfaces)
    (hOffset : d.dataOffset ≠ 0) (hSome : d.data = some data)
    (hData : classData bytes d.dataOffset = .ok data) : classDef bytes offset = .ok d := by
  have word : ∀ k w, d.words[k]? = some w → uint32 bytes .classDef (offset + k * 4) = .ok w := by
    intro k w hk
    exact uint32_of_holdsAt (HoldsAt.flatMap_getElem? (fun _ _ => length_ofUInt32 _) h hk) _
  simp only [classDef, word 0 _ rfl, word 1 _ rfl, word 2 _ rfl, word 3 _ rfl, word 4 _ rfl,
    word 5 _ rfl, word 6 _ rfl, word 7 _ rfl, Except.ok_bind, hInterfaces, if_neg hOffset, hData,
    Except.map, ← hSome]
  rfl

theorem mapItem_of_holdsAt {offset : Nat} {item : MapItem} (h : HoldsAt bytes offset item.encode) :
    mapItem bytes offset = .ok item := by
  have hSize : HoldsAt bytes (offset + 4) (ofUInt32 item.size) := h.left.right
  have hOffset : HoldsAt bytes (offset + 8) (ofUInt32 item.offset) := h.right
  simp only [mapItem, uint16_of_holdsAt h.left.left.left, Except.ok_bind, ItemKind.ofCode?_code,
    uint32_of_holdsAt hSize, uint32_of_holdsAt hOffset]
  rfl

theorem length_encode_mapItem (item : MapItem) : item.encode.length = MapItem.byteSize := rfl

theorem mapList_of_holdsAt {offset : UInt32} {items : List MapItem} (hOffset : offset ≠ 0)
    (hLength : items.length < 0x100000000) (h : HoldsAt bytes offset.toNat (encodeMap items)) :
    mapList bytes offset = .ok items.toArray := by
  have hCount : (UInt32.ofNat items.length).toNat = items.length :=
    UInt32.toNat_ofNat_of_lt hLength
  have hRun : (items.flatMap MapItem.encode).length = items.length * MapItem.byteSize := by
    rw [List.length_flatMap, List.map_congr_left (fun item _ => length_encode_mapItem item)]
    simp
  have hStop := h.stop_le (by simp [encodeMap, ofUInt32])
  simp only [encodeMap, List.length_append, length_ofUInt32, hRun] at hStop
  have hWithin : offset.toNat + 4 + items.length * MapItem.byteSize ≤ bytes.size := by omega
  have hItems : HoldsAt bytes (offset.toNat + 4) (items.flatMap MapItem.encode) := h.right
  have hEntries := entries_eq_ok (fun k x hk => mapItem_of_holdsAt
    (hItems.flatMap_getElem? (fun item _ => length_encode_mapItem item) hk)) #[]
  rw [mapList, if_neg hOffset]
  simp only [uint32_of_holdsAt h.left, hCount, within_of_le hWithin, hEntries, Except.ok_bind]
  simp

theorem size_stamp (h : Header) (rest : List UInt8) :
    (Seal.stamp (h.encode ++ rest).toArray).size = headerSize + rest.length := by
  rw [← Array.length_toList, Seal.toList_stamp, List.length_append, Header.length_encode]

theorem holdsAt_stamp_header (h : Header) (rest : List UInt8) :
    HoldsAt (Seal.stamp (h.encode ++ rest).toArray) 0 (Seal.sealedHeader h rest).encode := by
  refine ⟨rest, ?_⟩
  rw [List.drop_zero, Seal.toList_stamp]

structure Authentic (bytes : Bytes) (h : Header) : Prop where
  whole : headerSize ≤ bytes.size
  decoded : Header.decode bytes = h
  magic : h.magic = Header.magic035
  endianTag : h.endianTag = Header.littleEndian
  fileSize : h.fileSize.toNat = bytes.size
  checksum : Seal.checksum bytes = h.checksum
  signature : Seal.signature bytes = h.signature

theorem checkedHeader_eq_ok_iff {bytes : Bytes} {h : Header} :
    checkedHeader bytes = .ok h ↔ Authentic bytes h := by
  rw [checkedHeader, Header.decode?]
  by_cases hSize : headerSize ≤ bytes.size
  · rw [if_pos hSize]
    constructor
    · intro hOk
      dsimp only at hOk
      split at hOk
      · cases hOk
      rename_i hMarked
      split at hOk
      · cases hOk
      rename_i version hVersion
      split at hOk
      · cases hOk
      rename_i hSupported
      split at hOk
      · cases hOk
      rename_i hEndian
      split at hOk
      · cases hOk
      rename_i hFile
      split at hOk
      · cases hOk
      rename_i hChecksum
      split at hOk
      · cases hOk
      rename_i hSignature
      cases hOk
      rw [not_not.mp hSupported] at hVersion
      have hMagic := Header.magic_eq_iff.mpr ⟨by simpa using hMarked, hVersion⟩
      have hTag : (Header.decode bytes).endianTag = Header.littleEndian := by
        simpa [Header.isLittleEndian] using hEndian
      exact ⟨hSize, rfl, hMagic, hTag, not_not.mp hFile, not_not.mp hChecksum,
        not_not.mp hSignature⟩
    · rintro ⟨-, rfl, hMagic, hEndian, hFile, hChecksum, hSignature⟩
      obtain ⟨hMarked, hVersion⟩ := Header.magic_eq_iff.mp hMagic
      have hLittle := Header.isLittleEndian_of_tag hEndian
      simp [hMarked, hVersion, hLittle, hFile, hChecksum, hSignature]
  · simp only [if_neg hSize, reduceCtorEq, false_iff]
    exact fun hFile => hSize hFile.whole

theorem checkedHeader_stamp {h : Header} {rest : List UInt8} (hMagic : h.magic = Header.magic035)
    (hEndian : h.endianTag = Header.littleEndian)
    (hSize : h.fileSize.toNat = headerSize + rest.length) :
    checkedHeader (Seal.stamp (h.encode ++ rest).toArray) = .ok (Seal.sealedHeader h rest) := by
  have hLength := size_stamp h rest
  have hLong : 12 ≤ Array.size (h.encode ++ rest).toArray := by
    rw [List.size_toArray, List.length_append, Header.length_encode]
    exact Nat.le_add_right_of_le (by decide)
  apply checkedHeader_eq_ok_iff.mpr
  constructor
  case whole => omega
  case decoded => exact Header.decode_of_holdsAt (holdsAt_stamp_header h rest)
  case magic => rw [Seal.sealedHeader, Header.withSeal_magic, hMagic]
  case endianTag => rw [Seal.sealedHeader, Header.withSeal_endianTag, hEndian]
  case fileSize => rw [Seal.sealedHeader, Header.withSeal_fileSize, hSize, hLength]
  case checksum => rw [Seal.checksum_stamp, Seal.sealedHeader, Header.withSeal_checksum]
  case signature => rw [Seal.signature_stamp hLong, Seal.sealedHeader, Header.withSeal_signature]

end DexForge.Loader
