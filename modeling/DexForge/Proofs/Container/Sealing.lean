import DexForge.Proofs.Container.Header

/-! # Sealing

The integrity fields stand at positions 8 to 31. What is stored there follows from the bytes behind
them, so neither the old fields nor a second sealing matter, and all that a reader finds elsewhere
is as it was.
-/
set_option autoImplicit false

namespace DexForge

open LittleEndian

namespace Seal

/-- The same bytes, the integrity fields apart. -/
def AgreeOutside (a b : Bytes) : Prop := ∀ i, i < 8 ∨ 32 ≤ i → a[i]? = b[i]?

def fields (back : List UInt8) : List UInt8 :=
  ofUInt32 (Adler32.digest ((Sha1.digest back).toList ++ back)) ++ (Sha1.digest back).toList

theorem length_fields (back : List UInt8) : (fields back).length = 24 := by
  rw [fields, List.length_append, length_ofUInt32, Vector.length_toList]

variable {a b bytes : Bytes}

theorem AgreeOutside.take_eq (h : AgreeOutside a b) : a.toList.take 8 = b.toList.take 8 := by
  apply List.ext_getElem?
  intro i
  rw [List.getElem?_take, List.getElem?_take, Array.getElem?_toList, Array.getElem?_toList]
  split
  · next hi => exact h i (Or.inl hi)
  · rfl

theorem AgreeOutside.drop_eq (h : AgreeOutside a b) : a.toList.drop 32 = b.toList.drop 32 := by
  apply List.ext_getElem?
  intro i
  rw [List.getElem?_drop, List.getElem?_drop, Array.getElem?_toList, Array.getElem?_toList]
  exact h (32 + i) (Or.inr (Nat.le_add_right 32 i))

theorem AgreeOutside.le_size (h : AgreeOutside a b) (hLong : 32 < b.size) : b.size ≤ a.size := by
  have hLast : a[b.size - 1]? = some b[b.size - 1] := by
    rw [h _ (Or.inr (by omega)), Array.getElem?_eq_getElem (by omega)]
  obtain ⟨hIn, -⟩ := Array.getElem?_eq_some_iff.mp hLast
  omega

theorem length_front (h : 32 ≤ bytes.size) (i : Nat) (hi : i ≤ 32) :
    (bytes.toList.take i).length = i := by
  rw [List.length_take, Array.length_toList, Nat.min_eq_left (Nat.le_trans hi h)]

theorem toList_signed (bytes : Bytes) :
    (bytes.overwrite 12 (signature bytes).toList).toList = bytes.toList.take 12 ++
      ((Sha1.digest (bytes.toList.drop 32)).toList ++ bytes.toList.drop 32) := by
  rw [Bytes.toList_overwrite, Vector.length_toList, List.append_assoc]
  rfl

/-- The checksum is taken when the signature stands in its place, whatever stands in front of it. -/
theorem drop_signed (h : 32 ≤ bytes.size) :
    (bytes.overwrite 12 (signature bytes).toList).toList.drop 12 =
      (Sha1.digest (bytes.toList.drop 32)).toList ++ bytes.toList.drop 32 := by
  rw [toList_signed, List.drop_left' (length_front h 12 (by decide))]

/-- Sealing keeps both ends, and what it puts between them follows from the second. -/
theorem toList_stamp_eq (h : 32 ≤ bytes.size) :
    (stamp bytes).toList =
      bytes.toList.take 8 ++ (fields (bytes.toList.drop 32) ++ bytes.toList.drop 32) := by
  have hTwelve := length_front h 12 (by decide)
  rw [stamp, Bytes.toList_overwrite, length_ofUInt32, checksum, checksumStart, drop_signed h,
    toList_signed, List.take_append_of_le_length (by omega), List.take_take, fields,
    List.append_assoc, List.append_assoc]
  rfl

theorem size_stamp (h : 32 ≤ bytes.size) : (stamp bytes).size = bytes.size := by
  rw [← Array.length_toList, toList_stamp_eq h, List.length_append, List.length_append,
    length_front h 8 (by decide), length_fields, List.length_drop, Array.length_toList]
  omega

theorem stamp_agreeOutside (h : 32 ≤ bytes.size) : AgreeOutside (stamp bytes) bytes := by
  intro i hi
  have hFront := length_front h 8 (by decide)
  rw [← Array.getElem?_toList, ← Array.getElem?_toList, toList_stamp_eq h]
  obtain hi | hi := hi
  · rw [List.getElem?_append_left (by omega), List.getElem?_take_of_lt hi]
  · have hFields := length_fields (bytes.toList.drop 32)
    have hIndex : 32 + (i - 8 - 24) = i := by omega
    rw [List.getElem?_append_right (by omega), List.getElem?_append_right (by omega),
      List.getElem?_drop, hFront, hFields, hIndex]

theorem stamp_congr (hLong : 32 ≤ a.size) (hLong' : 32 ≤ b.size) (h : AgreeOutside a b) :
    stamp a = stamp b := by
  apply Array.toList_inj.mp
  rw [toList_stamp_eq hLong, toList_stamp_eq hLong', h.take_eq, h.drop_eq]

theorem holdsAt_fields (h : 32 ≤ bytes.size) :
    HoldsAt (stamp bytes) 8 (fields (bytes.toList.drop 32)) := by
  have hShape := toList_stamp_eq h
  rw [← List.append_assoc] at hShape
  have hHeld := HoldsAt.of_split hShape
  rwa [length_front h 8 (by decide)] at hHeld

theorem holdsAt_signature (h : 32 ≤ bytes.size) :
    HoldsAt (stamp bytes) 12 (signature (stamp bytes)).toList := by
  rw [signature_stamp (Nat.le_trans (by decide) h)]
  exact (holdsAt_fields h).right

theorem holdsAt_checksum (h : 32 ≤ bytes.size) :
    HoldsAt (stamp bytes) 8 (ofUInt32 (checksum (stamp bytes))) := by
  rw [checksum_stamp, checksum, checksumStart, drop_signed h]
  exact (holdsAt_fields h).left

end Seal

namespace Header

open Seal

variable {bytes stamped : Bytes}

theorem decode_eq_withSeal (hOutside : AgreeOutside stamped bytes)
    {signature : Vector UInt8 20} {checksum : UInt32}
    (hSignature : HoldsAt stamped 12 signature.toList)
    (hChecksum : HoldsAt stamped 8 (ofUInt32 checksum)) :
    decode stamped = (decode bytes).withSeal signature checksum := by
  have hWord : ∀ i, 32 ≤ i → uint32At? stamped i = uint32At? bytes i := fun i hi =>
    uint32At?_congr fun k _ hk => hOutside k (Or.inr (Nat.le_trans hi hk))
  have hMagic : (Vector.ofFn fun i : Fin 8 => stamped.getD i 0) =
      Vector.ofFn fun i : Fin 8 => bytes.getD i 0 := by
    apply congrArg Vector.ofFn
    funext i
    rw [Array.getD_eq_getD_getElem?, hOutside i (Or.inl i.isLt), ← Array.getD_eq_getD_getElem?]
  have hStored : (Vector.ofFn fun i : Fin 20 => stamped.getD (12 + i) 0) = signature := by
    apply Vector.ext
    intro i hi
    rw [Vector.getElem_ofFn]
    exact getD_of_holdsAt hSignature ⟨i, hi⟩
  have hSum : uint32At? stamped 8 = some checksum := uint32At?_of_holdsAt hChecksum
  simp (disch := decide) only [decode, withSeal, hWord, hMagic, hStored, hSum, Option.getD_some]

end Header

namespace Seal

/-- The file is as it was except for the integrity fields, which are those of the whole. -/
structure Sealed (bytes stamped : Bytes) : Prop where
  size : stamped.size = bytes.size
  outside : AgreeOutside stamped bytes
  header : ∃ h h', Header.decode? bytes = some h ∧ Header.decode? stamped = some h' ∧
    signature? stamped = some h'.signature ∧ checksum? stamped = some h'.checksum ∧
    h' = h.withSeal h'.signature h'.checksum

/-- Sealing a file with a whole header gives a sealed file. It is its own seal and that of every file
which differs from it in the integrity fields only. -/
theorem stamp?_sealed {bytes : Bytes} (h : headerSize ≤ bytes.size) :
    ∃ stamped, stamp? bytes = some stamped ∧ Sealed bytes stamped ∧
      stamp? stamped = some stamped ∧
      ∀ other, AgreeOutside other bytes → stamp? other = some stamped := by
  have hLong : 112 ≤ bytes.size := h
  have hFields : 32 ≤ bytes.size := Nat.le_trans (by decide) hLong
  have hSize := size_stamp hFields
  have hOutside := stamp_agreeOutside hFields
  have hSame : ∀ other, AgreeOutside other bytes → stamp? other = some (stamp bytes) := by
    intro other hOther
    have hOtherLong : 112 ≤ other.size := Nat.le_trans hLong (hOther.le_size (by omega))
    have hSealed : stamp? other = some (stamp other) := if_pos hOtherLong
    rw [hSealed, stamp_congr (by omega) hFields hOther]
  refine ⟨stamp bytes, if_pos h, ⟨hSize, hOutside, ?_⟩, hSame _ hOutside, hSame⟩
  have hDecoded := Header.decode_eq_withSeal hOutside (holdsAt_signature hFields)
    (holdsAt_checksum hFields)
  refine ⟨Header.decode bytes, Header.decode (stamp bytes), if_pos h, if_pos (hSize ▸ h), ?_, ?_, ?_⟩
  · rw [hDecoded]
    exact if_pos (by rw [hSize]; exact hFields)
  · rw [hDecoded]
    exact if_pos (by rw [hSize]; exact Nat.le_trans (by decide) hFields)
  · rw [hDecoded]
    rfl

/-- A file with one byte behind its header, and with integrity fields that nobody computed. -/
def unsealed : Bytes := Array.replicate 113 0xff

theorem size_unsealed : unsealed.size = 113 := Array.size_replicate

theorem stamp?_sealed_unsealed : headerSize ≤ unsealed.size ∧
    ∃ stamped, stamp? unsealed = some stamped ∧ Sealed unsealed stamped ∧
      stamp? stamped = some stamped ∧
      stamp? (unsealed.set 20 0 (by rw [size_unsealed]; decide)) = some stamped := by
  have hWhole : headerSize ≤ unsealed.size := by
    rw [size_unsealed]
    decide
  obtain ⟨stamped, hStamp, hSealed, hAgain, hOthers⟩ := stamp?_sealed hWhole
  refine ⟨hWhole, stamped, hStamp, hSealed, hAgain, hOthers _ ?_⟩
  intro i hi
  exact Array.getElem?_set_ne _ (by omega)

end Seal

end DexForge
