import DexForge.Proofs.Container.Consistency
import DexForge.Proofs.Digest.Adler32

/-! # Small corruption does not go unnoticed

The header ties a file to its bytes: a marker with one spelling, the number of bytes, and a checksum
over all that follows it. Whatever changes in one place disagrees with one of them.
-/
set_option autoImplicit false

namespace DexForge

open LittleEndian

/-- One byte replaced by another one, or some bytes lost or gained at the end. -/
inductive Corruption : Bytes → Bytes → Prop where
  | replaced {bytes : Bytes} {i : Nat} {byte : UInt8} (hi : i < bytes.size)
      (h : byte ≠ bytes[i]) : Corruption bytes (bytes.set i byte)
  | cut {bytes lost : Bytes} (h : lost ≠ #[]) : Corruption (bytes ++ lost) bytes
  | extended {bytes gained : Bytes} (h : gained ≠ #[]) : Corruption bytes (bytes ++ gained)

namespace Loader.Authentic

variable {bytes : Bytes} {h h' : Header}

theorem getElem?_magic (hFile : Authentic bytes h) {i : Nat} (hi : i < 8) :
    bytes[i]? = some Header.magic035[i] := by
  have hWhole : 112 ≤ bytes.size := hFile.whole
  have hByte : h.magic[i] = bytes.getD i 0 := by
    rw [← hFile.decoded]
    exact Vector.getElem_ofFn hi
  rw [← hFile.magic, hByte, Array.getElem?_eq_getElem (by omega), Array.getD_eq_getD_getElem?,
    Array.getElem?_eq_getElem (by omega), Option.getD_some]

theorem uint32At?_checksum (hFile : Authentic bytes h) :
    uint32At? bytes 8 = some (Seal.checksum bytes) := by
  have hWhole : 112 ≤ bytes.size := hFile.whole
  rw [hFile.checksum, ← hFile.decoded]
  exact uint32At?_eq_some_getD (by omega)

theorem uint32At?_fileSize (hFile : Authentic bytes h) : uint32At? bytes 32 = some h.fileSize := by
  have hWhole : 112 ≤ bytes.size := hFile.whole
  rw [← hFile.decoded]
  exact uint32At?_eq_some_getD (by omega)

theorem getElem?_checksum (hFile : Authentic bytes h) (k : Nat) (hk : k < 4) :
    bytes[8 + k]? = (ofUInt32 (Seal.checksum bytes))[k]? := by
  have hHeld := holdsAt_of_uint32At? hFile.uint32At?_checksum
  rw [List.getElem?_eq_getElem (by rwa [length_ofUInt32])]
  exact hHeld.getElem? (List.getElem?_eq_getElem (by rwa [length_ofUInt32]))

/-- The marker fixes the bytes in front of the checksum, the bytes behind the checksum fix it, and
the checksum fixes any one of them when the others stay. -/
theorem eq_of_set {i : Nat} (hi : i < bytes.size) {byte : UInt8} (hOld : Authentic bytes h)
    (hNew : Authentic (bytes.set i byte) h') : byte = bytes[i] := by
  have hByte : (bytes.set i byte)[i]? = some byte := Array.getElem?_set_self hi
  have hAt : bytes[i]? = some bytes[i] := Array.getElem?_eq_getElem hi
  by_cases hMagic : i < 8
  · rw [hNew.getElem?_magic hMagic, ← hOld.getElem?_magic hMagic, hAt] at hByte
    exact (Option.some.inj hByte).symm
  have hCovered : (bytes.set i byte).toList.drop 12 = (bytes.toList.set i byte).drop 12 := by
    rw [Array.toList_set]
  by_cases hChecksum : i < 12
  · -- the damaged word is stored outside the range that it covers
    have hSame : Seal.checksum (bytes.set i byte) = Seal.checksum bytes := by
      rw [Seal.checksum, Seal.checksumStart, hCovered, List.drop_set_of_lt hChecksum]
      rfl
    obtain ⟨k, rfl⟩ : ∃ k, i = 8 + k := ⟨i - 8, by omega⟩
    rw [hNew.getElem?_checksum k (by omega), hSame, ← hOld.getElem?_checksum k (by omega),
      hAt] at hByte
    exact (Option.some.inj hByte).symm
  · have hStored : uint32At? (bytes.set i byte) 8 = uint32At? bytes 8 :=
      uint32At?_congr fun k hk _ => Array.getElem?_set_ne hi (by omega)
    have hIndex : i - 12 < (bytes.toList.drop 12).length := by
      rw [List.length_drop, Array.length_toList]
      omega
    have hPosition : 12 + (i - 12) = i := by omega
    rw [hNew.uint32At?_checksum, hOld.uint32At?_checksum, Option.some.injEq, Seal.checksum,
      Seal.checksum, Seal.checksumStart, hCovered, List.drop_set, if_neg hChecksum] at hStored
    have hEq := Adler32.eq_of_digest_set hIndex hStored
    simpa only [List.getElem_drop, hPosition, Array.getElem_toList] using hEq

theorem eq_empty_of_append {rest : Bytes} (hShort : Authentic bytes h)
    (hLong : Authentic (bytes ++ rest) h') : rest = #[] := by
  have hWhole : 112 ≤ bytes.size := hShort.whole
  have hWord : uint32At? (bytes ++ rest) 32 = uint32At? bytes 32 :=
    uint32At?_congr fun k hk _ => Array.getElem?_append_left (by omega)
  rw [hShort.uint32At?_fileSize, hLong.uint32At?_fileSize, Option.some.injEq] at hWord
  have hSize := hLong.fileSize
  rw [hWord, hShort.fileSize, Array.size_append] at hSize
  exact Array.eq_empty_of_size_eq_zero (by omega)

end Loader.Authentic

namespace Container

theorem authentic_of_load {bytes : Bytes} {c : Container} (h : load bytes = .ok c) :
    ∃ header, Loader.Authentic bytes header := by
  obtain ⟨header, hHeader, -⟩ := Except.bind_eq_ok_iff.mp h
  exact ⟨header, Loader.checkedHeader_eq_ok_iff.mp hHeader⟩

/-- No file that loads still loads with one byte changed, or with bytes lost or gained at its end,
whatever the byte and however long the file. -/
theorem load_corrupted {bytes damaged : Bytes} {c : Container} (h : load bytes = .ok c)
    (hDamaged : Corruption bytes damaged) : ∃ e, load damaged = .error e := by
  cases hLoad : load damaged with
  | error e => exact ⟨e, rfl⟩
  | ok c' =>
    exfalso
    obtain ⟨header, hOld⟩ := authentic_of_load h
    obtain ⟨header', hNew⟩ := authentic_of_load hLoad
    cases hDamaged with
    | replaced hi hByte => exact hByte (hOld.eq_of_set hi hNew)
    | cut hLost => exact hLost (hNew.eq_empty_of_append hOld)
    | extended hGained => exact hGained (hOld.eq_empty_of_append hNew)

theorem load_corrupted_nameless : (∃ c, load nameless = .ok c) ∧
    (∃ h : 115 < nameless.size, ∃ e, load (nameless.set 115 (nameless[115] + 1)) = .error e) ∧
    ∃ e, load (nameless ++ #[0]) = .error e := by
  obtain ⟨header, hLoad⟩ := load_nameless
  have hLast : 115 < nameless.size := by
    rw [nameless, Loader.size_stamp]
    decide
  refine ⟨⟨_, hLoad⟩, ⟨hLast, load_corrupted hLoad (.replaced hLast ?_)⟩,
    load_corrupted hLoad (.extended (by simp))⟩
  simp

end Container

end DexForge
