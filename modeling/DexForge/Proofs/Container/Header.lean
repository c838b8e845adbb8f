import DexForge.Container.Header
import DexForge.Proofs.Bytes.Position
import Mathlib.Tactic.Simps.Basic

/-! # Sealing a header and reading it back

Sealing a file that starts with a header replaces the two integrity fields of that header and
nothing else, and what it stores agrees with what a reader computes from the sealed file.
-/
set_option autoImplicit false

namespace DexForge

open LittleEndian

theorem Bytes.toList_overwrite (bytes : Bytes) (i : Nat) (patch : List UInt8) :
    (bytes.overwrite i patch).toList =
      bytes.toList.take i ++ patch ++ bytes.toList.drop (i + patch.length) := rfl

theorem Bytes.drop_overwrite {bytes : Bytes} {i j : Nat} {patch : List UInt8} (hi : i ≤ bytes.size)
    (hj : i + patch.length ≤ j) : (bytes.overwrite i patch).toList.drop j = bytes.toList.drop j := by
  have hFront : (bytes.toList.take i ++ patch).length = i + patch.length := by
    rw [List.length_append, List.length_take, Array.length_toList, Nat.min_eq_left hi]
  have hSplit : j = i + patch.length + (j - (i + patch.length)) := by omega
  rw [toList_overwrite, hSplit, ← List.drop_drop, List.drop_left' hFront, List.drop_drop]

namespace Header

theorem length_encode (h : Header) : h.encode.length = DexForge.headerSize := by
  have hWords : (h.words.flatMap ofUInt32).length = 80 := by
    simp [words, Section.words]
  simp only [encode, List.length_append, hWords, Vector.length_toList, length_ofUInt32]
  rfl

theorem getD_of_holdsAt {bytes : Bytes} {i n : Nat} {v : Vector UInt8 n}
    (h : HoldsAt bytes i v.toList) (k : Fin n) : bytes.getD (i + k) 0 = v[k] := by
  have hGet : bytes[i + k.val]? = some v[k] := h.getElem? (by simp)
  rw [Array.getD_eq_getD_getElem?, hGet, Option.getD_some]

theorem decode_of_holdsAt {bytes : Bytes} {h : Header} (hBytes : HoldsAt bytes 0 h.encode) :
    decode bytes = h := by
  have hWords := hBytes.right
  have hSignature := hBytes.left.right
  have hChecksum := hBytes.left.left.right
  have hMagic := hBytes.left.left.left
  have hStored : uint32At? bytes 8 = some h.checksum :=
    uint32At?_of_holdsAt (by simpa using hChecksum)
  have hFirst : (Vector.ofFn fun i : Fin 8 => bytes.getD i 0) = h.magic := by
    apply Vector.ext
    intro i hi
    have hByte := getD_of_holdsAt hMagic ⟨i, hi⟩
    simpa using hByte
  have hSecond : (Vector.ofFn fun i : Fin 20 => bytes.getD (12 + i) 0) = h.signature := by
    apply Vector.ext
    intro i hi
    have hByte := getD_of_holdsAt hSignature ⟨i, hi⟩
    simpa using hByte
  have word : ∀ k i w, [h.fileSize, h.headerSize, h.endianTag, h.link.size, h.link.offset,
      h.mapOffset, h.stringIds.size, h.stringIds.offset, h.typeIds.size, h.typeIds.offset,
      h.protoIds.size, h.protoIds.offset, h.fieldIds.size, h.fieldIds.offset, h.methodIds.size,
      h.methodIds.offset, h.classDefs.size, h.classDefs.offset, h.data.size,
      h.data.offset][k]? = some w → 32 + k * 4 = i → (uint32At? bytes i).getD 0 = w := by
    intro k i w hWord hPosition
    have hAt := hWords.flatMap_getElem? (fun _ _ => length_ofUInt32 _) hWord
    have hStart : 0 + (h.magic.toList ++ ofUInt32 h.checksum ++ h.signature.toList).length = 32 := by
      simp
    rw [hStart, hPosition] at hAt
    rw [uint32At?_of_holdsAt hAt, Option.getD_some]
  simp only [decode, hStored, hFirst, hSecond, Option.getD_some, word 0 32 _ rfl rfl,
    word 1 36 _ rfl rfl, word 2 40 _ rfl rfl, word 3 44 _ rfl rfl, word 4 48 _ rfl rfl,
    word 5 52 _ rfl rfl, word 6 56 _ rfl rfl, word 7 60 _ rfl rfl, word 8 64 _ rfl rfl,
    word 9 68 _ rfl rfl, word 10 72 _ rfl rfl, word 11 76 _ rfl rfl, word 12 80 _ rfl rfl,
    word 13 84 _ rfl rfl, word 14 88 _ rfl rfl, word 15 92 _ rfl rfl, word 16 96 _ rfl rfl,
    word 17 100 _ rfl rfl, word 18 104 _ rfl rfl, word 19 108 _ rfl rfl, Nat.reduceAdd]

theorem hasMagic_of_magic {h : Header} (hMagic : h.magic = magic035) : h.hasMagic = true := by
  simp only [hasMagic, hMagic]
  rfl

theorem version?_of_magic {h : Header} (hMagic : h.magic = magic035) :
    h.version? = some supportedVersion := by
  simp [version?, hMagic, magic035, supportedVersion]

/-- A reader asks for the marker and for the number that the digits denote, and both leave one
choice for each byte. -/
theorem magic_eq_iff {h : Header} :
    h.magic = magic035 ↔ h.hasMagic = true ∧ h.version? = some supportedVersion := by
  constructor
  · intro hMagic
    exact ⟨hasMagic_of_magic hMagic, version?_of_magic hMagic⟩
  · rintro ⟨hMarked, hVersion⟩
    simp only [hasMagic, Bool.and_eq_true, beq_iff_eq] at hMarked
    obtain ⟨⟨⟨⟨h0, h1⟩, h2⟩, h3⟩, h7⟩ := hMarked
    simp only [version?, supportedVersion] at hVersion
    split at hVersion
    · rename_i hDigits
      simp only [List.all_cons, List.all_nil, Bool.and_true, Bool.and_eq_true, decide_eq_true_eq,
        UInt8.le_iff_toNat_le] at hDigits
      simp only [List.foldl_cons, List.foldl_nil, Option.some.injEq] at hVersion
      obtain ⟨⟨h4, h4'⟩, ⟨h5, h5'⟩, h6, h6'⟩ := hDigits
      simp only [UInt8.reduceToNat] at h4 h4' h5 h5' h6 h6'
      have hFirst : h.magic[4] = 0x30 := UInt8.toNat.inj (by simp; omega)
      have hSecond : h.magic[5] = 0x33 := UInt8.toNat.inj (by simp; omega)
      have hThird : h.magic[6] = 0x35 := UInt8.toNat.inj (by simp; omega)
      apply Vector.ext
      intro i hi
      have hCases : i = 0 ∨ i = 1 ∨ i = 2 ∨ i = 3 ∨ i = 4 ∨ i = 5 ∨ i = 6 ∨ i = 7 := by omega
      rcases hCases with rfl | rfl | rfl | rfl | rfl | rfl | rfl | rfl
      all_goals assumption
    · cases hVersion

theorem isLittleEndian_of_tag {h : Header} (hTag : h.endianTag = littleEndian) :
    h.isLittleEndian = true := by
  rw [isLittleEndian, hTag, beq_self_eq_true]

@[simps]
def withSeal (h : Header) (signature : Vector UInt8 20) (checksum : UInt32) : Header :=
  { h with signature, checksum }

theorem encode_withSeal (h : Header) (signature : Vector UInt8 20) (checksum : UInt32) :
    (h.withSeal signature checksum).encode = h.magic.toList ++ ofUInt32 checksum ++
      signature.toList ++ h.words.flatMap ofUInt32 := rfl

end Header

namespace Seal

/-- The header of a sealed file: `h` with both integrity fields computed from what follows. -/
def sealedHeader (h : Header) (rest : List UInt8) : Header :=
  let bytes : Bytes := (h.encode ++ rest).toArray
  h.withSeal (signature bytes) (checksum (bytes.overwrite 12 (signature bytes).toList))

theorem encode_parts (h : Header) (rest : List UInt8) :
    (h.encode ++ rest).take 8 = h.magic.toList ∧
      (h.encode ++ rest).take 12 = h.magic.toList ++ ofUInt32 h.checksum ∧
      (h.encode ++ rest).drop 32 = h.words.flatMap ofUInt32 ++ rest := by
  have hShape : h.encode ++ rest = h.magic.toList ++
      (ofUInt32 h.checksum ++ (h.signature.toList ++ (h.words.flatMap ofUInt32 ++ rest))) := by
    simp only [Header.encode, List.append_assoc]
  have hMagic : h.magic.toList.length = 8 := Vector.length_toList
  have hBoth : (h.magic.toList ++ ofUInt32 h.checksum).length = 12 := by
    rw [List.length_append, hMagic, length_ofUInt32]
  have hAll : (h.magic.toList ++ ofUInt32 h.checksum ++ h.signature.toList).length = 32 := by
    rw [List.length_append, hBoth, Vector.length_toList]
  refine ⟨?_, ?_, ?_⟩
  · rw [hShape, List.take_left' hMagic]
  · rw [hShape, ← List.append_assoc, List.take_left' hBoth]
  · rw [hShape, ← List.append_assoc, ← List.append_assoc, List.drop_left' hAll]

theorem toList_stamp (h : Header) (rest : List UInt8) :
    (stamp (h.encode ++ rest).toArray).toList = (sealedHeader h rest).encode ++ rest := by
  obtain ⟨hEight, hTwelve, hRest⟩ := encode_parts h rest
  have hMagic : h.magic.toList.length = 8 := Vector.length_toList
  have hSigned : (Bytes.overwrite (h.encode ++ rest).toArray 12
      (signature (h.encode ++ rest).toArray).toList).toList =
      h.magic.toList ++ (ofUInt32 h.checksum ++ ((signature (h.encode ++ rest).toArray).toList ++
        (h.words.flatMap ofUInt32 ++ rest))) := by
    rw [Bytes.toList_overwrite, Vector.length_toList, hTwelve, hRest]
    simp only [List.append_assoc]
  rw [stamp, Bytes.toList_overwrite, hSigned, length_ofUInt32, List.take_left' hMagic,
    ← List.append_assoc, List.drop_left' (by rw [List.length_append, hMagic]; rfl)]
  rw [sealedHeader, Header.encode_withSeal]
  simp only [List.append_assoc]

theorem eight_le_signed (bytes : Bytes) :
    8 ≤ (bytes.overwrite 12 (signature bytes).toList).size := by
  rw [← Array.length_toList, Bytes.toList_overwrite]
  simp only [List.length_append, Vector.length_toList]
  omega

theorem checksum_stamp (bytes : Bytes) :
    checksum (stamp bytes) = checksum (bytes.overwrite 12 (signature bytes).toList) := by
  rw [checksum, stamp, Bytes.drop_overwrite (eight_le_signed bytes) (by simp [checksumStart]),
    checksum]

theorem signature_stamp {bytes : Bytes} (h : 12 ≤ bytes.size) :
    signature (stamp bytes) = signature bytes := by
  rw [signature, stamp, Bytes.drop_overwrite (eight_le_signed bytes) (by simp [signatureStart]),
    Bytes.drop_overwrite h (by simp [signatureStart]), ← signature]

end Seal

end DexForge
