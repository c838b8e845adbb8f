import DexForge.Proofs.Instruction.Codec

/-! # What decoding gives

A decoded instruction has operands that fit their fields and takes no more units than there were, so
it can be encoded again. Bits of the units that the instruction leaves unused are not kept: decoding
the new units gives the instruction back, not the units.
-/
set_option autoImplicit false

namespace DexForge.Instruction

theorem lowNibble_lt (byte : UInt8) : lowNibble byte < 16 := by
  have hMod : byte.toNat % 16 < 16 := Nat.mod_lt _ (by decide)
  have hNibble : (lowNibble byte).toNat = byte.toNat % 16 :=
    UInt8.toNat_ofNat_of_lt (by simp only [UInt8.size]; omega)
  rw [UInt8.lt_iff_toNat_lt, hNibble]
  exact hMod

theorem highNibble_lt (byte : UInt8) : highNibble byte < 16 := by
  have hByte := byte.toNat_lt
  have hDiv : byte.toNat / 16 < 16 := by omega
  have hNibble : (highNibble byte).toNat = byte.toNat / 16 :=
    UInt8.toNat_ofNat_of_lt (by simp only [UInt8.size]; omega)
  rw [UInt8.lt_iff_toNat_lt, hNibble]
  exact hDiv

theorem signedNibble_bounds (byte : UInt8) :
    -8 ≤ (signedNibble byte).toInt ∧ (signedNibble byte).toInt ≤ 7 := by
  have allBytes : ∀ b : Fin 256, -8 ≤ (signedNibble (UInt8.ofNat b)).toInt ∧
      (signedNibble (UInt8.ofNat b)).toInt ≤ 7 := by decide +kernel
  have hByte := allBytes ⟨byte.toNat, byte.toNat_lt⟩
  rwa [UInt8.ofNat_toNat] at hByte

theorem argumentNibbles_lt {fifth : UInt8} (hFifth : fifth < 16) (unit : UInt16) :
    ∀ arg ∈ argumentNibbles fifth unit, arg < 16 := by
  simp only [argumentNibbles, List.forall_mem_cons]
  exact ⟨lowNibble_lt _, highNibble_lt _, lowNibble_lt _, highNibble_lt _, hFifth,
    fun _ hArg => by cases hArg⟩

/-- The operands fit their fields, and the instruction takes `n` units. -/
def Takes (n : Nat) (i : Instruction) : Prop := i.size = n ∧ i.WellFormed

theorem forall_mem_row {P : Instruction → Prop} {c : Prop} [Decidable c] {i : Instruction}
    {below : Option Instruction} (hRow : P i) (hBelow : ∀ j ∈ below, P j) :
    ∀ j ∈ (if c then some i else below), P j := by
  intro j hj
  split at hj
  · cases hj
    exact hRow
  · exact hBelow j hj

theorem forall_mem_none {P : Instruction → Prop} : ∀ j ∈ (none : Option Instruction), P j :=
  fun _ hj => by cases hj

theorem takes_of_decodeShort? (opcode aa : UInt8) :
    ∀ i ∈ decodeShort? opcode aa, i.Takes 1 := by
  unfold decodeShort?
  iterate 7 refine forall_mem_row ⟨rfl, trivial⟩ ?_
  exact forall_mem_row ⟨rfl, lowNibble_lt aa, signedNibble_bounds aa⟩ forall_mem_none

theorem takes_of_decodeMiddle? (opcode aa : UInt8) (w : UInt16) :
    ∀ i ∈ decodeMiddle? opcode aa w, i.Takes 2 := by
  have hNibbles : lowNibble aa < 16 ∧ highNibble aa < 16 := ⟨lowNibble_lt aa, highNibble_lt aa⟩
  unfold decodeMiddle?
  iterate 6 refine forall_mem_row ⟨rfl, trivial⟩ ?_
  refine forall_mem_row ⟨rfl, hNibbles⟩ ?_
  iterate 2 refine forall_mem_row ⟨rfl, trivial⟩ ?_
  iterate 2 refine forall_mem_row ⟨rfl, hNibbles⟩ ?_
  exact forall_mem_row ⟨rfl, trivial⟩ forall_mem_none

theorem takes_of_decodeLong? (opcode aa : UInt8) (w x : UInt16) :
    ∀ i ∈ decodeLong? opcode aa w x, i.Takes 3 := by
  unfold decodeLong?
  iterate 2 refine forall_mem_row ⟨rfl, trivial⟩ ?_
  intro i hi
  split at hi
  · next kind _ =>
    dsimp only at hi
    split at hi
    · next hCount =>
      cases hi
      refine ⟨rfl, Nat.le_trans (List.length_take_le _ _) hCount, ?_⟩
      intro arg hArg
      exact argumentNibbles_lt (lowNibble_lt aa) x arg (List.mem_of_mem_take hArg)
    · cases hi
  · obtain ⟨kind, -, rfl⟩ := Option.map_eq_some_iff.mp hi
    exact ⟨rfl, trivial⟩

theorem exists_takes_of_decode? {units : List UInt16} {i : Instruction}
    (h : decode? units = some i) : ∃ n ≤ units.length, i.Takes n := by
  match units with
  | [] => cases h
  | first :: rest =>
    obtain hShort | ⟨-, h⟩ := Option.or_eq_some_iff.mp h
    · exact ⟨1, by simp, takes_of_decodeShort? _ _ i hShort⟩
    match rest with
    | [] => cases h
    | w :: tail =>
      obtain hMiddle | ⟨-, h⟩ := Option.or_eq_some_iff.mp h
      · exact ⟨2, by simp, takes_of_decodeMiddle? _ _ _ i hMiddle⟩
      match tail with
      | [] => cases h
      | x :: _ => exact ⟨3, by simp, takes_of_decodeLong? _ _ _ _ i h⟩

/-- Encoding and decoding are inverse to each other, on the instructions whose operands fit their
fields and on what decoding accepts; these are the same instructions. -/
theorem codec_inverse :
    (∀ i : Instruction, i.WellFormed → ∀ rest : List UInt16,
      i.encode.length = i.size ∧ decode? (i.encode ++ rest) = some i) ∧
    ∀ (units : List UInt16) (i : Instruction), decode? units = some i →
      i.WellFormed ∧ i.size ≤ units.length ∧
      ∀ rest : List UInt16, decode? (i.encode ++ rest) = some i := by
  constructor
  · intro i hFits rest
    exact ⟨length_encode i, decode?_encode hFits rest⟩
  · intro units i hDecode
    obtain ⟨n, hLength, rfl, hFits⟩ := exists_takes_of_decode? hDecode
    exact ⟨hFits, hLength, decode?_encode hFits⟩

/-- A call with five arguments is read back; of a call with two, the bits of the other three are
dropped. -/
theorem codec_inverse_invoke :
    (invoke .super 0xffff [15, 0, 7, 1, 14]).WellFormed ∧
    decode? ((invoke .super 0xffff [15, 0, 7, 1, 14]).encode ++ [0]) =
      some (invoke .super 0xffff [15, 0, 7, 1, 14]) ∧
    decode? [0x2a6e, 7, 0x4321] = some (invoke .virtual 7 [1, 2]) ∧
    decode? (invoke .virtual 7 [1, 2]).encode = some (invoke .virtual 7 [1, 2]) := by
  have hFits : (invoke .super 0xffff [15, 0, 7, 1, 14]).WellFormed := ⟨by decide, by simp⟩
  have hDecode : decode? [0x2a6e, 7, 0x4321] = some (invoke .virtual 7 [1, 2]) := by decide
  exact ⟨hFits, (codec_inverse.1 _ hFits [0]).2, hDecode, (codec_inverse.2 _ _ hDecode).2.2 []⟩

end DexForge.Instruction
