import DexForge.Instruction.Codec

/-! # Decoding undoes encoding

The fields of a unit come apart as they were joined, so an instruction whose operands fit their
fields is read back from its units, whatever follows them.
-/
set_option autoImplicit false

namespace DexForge.Instruction

theorem toNat_joinBytes (low high : UInt8) :
    (joinBytes low high).toNat = low.toNat + high.toNat * 0x100 := by
  have hLow := low.toNat_lt
  have hHigh := high.toNat_lt
  exact UInt16.toNat_ofNat_of_lt (by simp only [UInt16.size]; omega)

@[simp] theorem lowByte_joinBytes (low high : UInt8) : lowByte (joinBytes low high) = low := by
  have hLow := low.toNat_lt
  have hMod : (low.toNat + high.toNat * 0x100) % 0x100 = low.toNat := by omega
  rw [lowByte, toNat_joinBytes, hMod, UInt8.ofNat_toNat]

@[simp] theorem highByte_joinBytes (low high : UInt8) : highByte (joinBytes low high) = high := by
  have hLow := low.toNat_lt
  have hDiv : (low.toNat + high.toNat * 0x100) / 0x100 = high.toNat := by omega
  rw [highByte, toNat_joinBytes, hDiv, UInt8.ofNat_toNat]

theorem toNat_joinNibbles (low high : UInt8) :
    (joinNibbles low high).toNat = low.toNat % 16 + high.toNat % 16 * 16 :=
  UInt8.toNat_ofNat_of_lt (by simp only [UInt8.size]; omega)

theorem lowNibble_joinNibbles {low high : UInt8} (h : low < 16) :
    lowNibble (joinNibbles low high) = low := by
  have hLow : low.toNat < 16 := h
  have hMod : (low.toNat % 16 + high.toNat % 16 * 16) % 16 = low.toNat := by omega
  rw [lowNibble, toNat_joinNibbles, hMod, UInt8.ofNat_toNat]

theorem highNibble_joinNibbles {low high : UInt8} (h : high < 16) :
    highNibble (joinNibbles low high) = high := by
  have hHigh : high.toNat < 16 := h
  have hDiv : (low.toNat % 16 + high.toNat % 16 * 16) / 16 = high.toNat := by omega
  rw [highNibble, toNat_joinNibbles, hDiv, UInt8.ofNat_toNat]

@[simp] theorem joinUnits_lowUnit_highUnit (word : UInt32) :
    joinUnits (lowUnit word) (highUnit word) = word := by
  have hWord := word.toNat_lt
  have hLow : (lowUnit word).toNat = word.toNat % 0x10000 :=
    UInt16.toNat_ofNat_of_lt (by simp only [UInt16.size]; omega)
  have hHigh : (highUnit word).toNat = word.toNat / 0x10000 :=
    UInt16.toNat_ofNat_of_lt (by simp only [UInt16.size]; omega)
  have hSum : word.toNat % 0x10000 + word.toNat / 0x10000 * 0x10000 = word.toNat := by omega
  rw [joinUnits, hLow, hHigh, hSum, UInt32.ofNat_toNat]

theorem signedNibble_joinNibbles {dst : UInt8} {value : Int8} (hDst : dst < 16)
    (hLow : -8 ≤ value.toInt) (hHigh : value.toInt ≤ 7) :
    signedNibble (joinNibbles dst value.toUInt8) = value := by
  have allNibbles : ∀ d : Fin 16, ∀ v : Fin 16,
      signedNibble (joinNibbles (UInt8.ofNat d) (Int8.ofInt ((v : Int) - 8)).toUInt8) =
        Int8.ofInt ((v : Int) - 8) := by decide +kernel
  have hDst' : dst.toNat < 16 := hDst
  have hCase := allNibbles ⟨dst.toNat, hDst'⟩ ⟨(value.toInt + 8).toNat, by omega⟩
  have hValue : ((value.toInt + 8).toNat : Int) - 8 = value.toInt := by omega
  simp only [hValue, Int8.ofInt_toInt, UInt8.ofNat_toNat] at hCase
  exact hCase

theorem length_encode (i : Instruction) : i.encode.length = i.size := by
  cases i <;> rfl

theorem size_pos (i : Instruction) : 0 < i.size := by
  cases i <;> simp [size]

theorem invokeKind?_invoke (kind : InvokeKind) :
    Opcode.invokeKind? (Opcode.invoke kind) = some kind := by
  cases kind <;> rfl

theorem invokeRangeKind?_invokeRange (kind : InvokeKind) :
    Opcode.invokeRangeKind? (Opcode.invokeRange kind) = some kind := by
  cases kind <;> rfl

theorem invokeKind?_invokeRange (kind : InvokeKind) :
    Opcode.invokeKind? (Opcode.invokeRange kind) = none := by
  cases kind <;> rfl

theorem decodeShort?_invoke (kind : InvokeKind) (aa : UInt8) :
    decodeShort? (Opcode.invoke kind) aa = none := by
  cases kind <;> rfl

theorem decodeMiddle?_invoke (kind : InvokeKind) (aa : UInt8) (w : UInt16) :
    decodeMiddle? (Opcode.invoke kind) aa w = none := by
  cases kind <;> rfl

theorem decodeShort?_invokeRange (kind : InvokeKind) (aa : UInt8) :
    decodeShort? (Opcode.invokeRange kind) aa = none := by
  cases kind <;> rfl

theorem decodeMiddle?_invokeRange (kind : InvokeKind) (aa : UInt8) (w : UInt16) :
    decodeMiddle? (Opcode.invokeRange kind) aa w = none := by
  cases kind <;> rfl

theorem decodeLong?_invoke (kind : InvokeKind) (aa : UInt8) (w x : UInt16) :
    decodeLong? (Opcode.invoke kind) aa w x =
      if (highNibble aa).toNat ≤ 5 then
        some (.invoke kind w ((argumentNibbles (lowNibble aa) x).take (highNibble aa).toNat))
      else none := by
  rw [decodeLong?, if_neg (by cases kind <;> decide), if_neg (by cases kind <;> decide),
    invokeKind?_invoke]

theorem decodeLong?_invokeRange (kind : InvokeKind) (aa : UInt8) (w x : UInt16) :
    decodeLong? (Opcode.invokeRange kind) aa w x = some (.invokeRange kind w x aa) := by
  rw [decodeLong?, if_neg (by cases kind <;> decide), if_neg (by cases kind <;> decide),
    invokeKind?_invokeRange, invokeRangeKind?_invokeRange]
  rfl

theorem argumentNibbles_take {args : List UInt8} (hLength : args.length ≤ 5)
    (hArgs : ∀ arg ∈ args, arg < 16) :
    (argumentNibbles (if args.length = 5 then args.getD 4 0 else 0)
      (joinBytes (joinNibbles (args.getD 0 0) (args.getD 1 0))
        (joinNibbles (args.getD 2 0) (args.getD 3 0)))).take args.length = args := by
  have hRegister : ∀ i, args.getD i 0 < 16 := by
    intro i
    rw [List.getD_eq_getElem?_getD]
    cases hGet : args[i]? with
    | none => exact (by decide : (0 : UInt8) < 16)
    | some arg => exact hArgs arg (List.mem_of_getElem? hGet)
  simp only [argumentNibbles, lowByte_joinBytes, highByte_joinBytes,
    lowNibble_joinNibbles (hRegister 0), highNibble_joinNibbles (hRegister 1),
    lowNibble_joinNibbles (hRegister 2), highNibble_joinNibbles (hRegister 3)]
  match args, hLength with
  | [], _ | [_], _ | [_, _], _ | [_, _, _], _ | [_, _, _, _], _ | [_, _, _, _, _], _ => rfl
  | _ :: _ :: _ :: _ :: _ :: _ :: _, h => simp only [List.length_cons] at h; omega

theorem decode?_encodeInvoke {kind : InvokeKind} {method : UInt16} {args : List UInt8}
    (hLength : args.length ≤ 5) (hArgs : ∀ arg ∈ args, arg < 16) (rest : List UInt16) :
    decode? (encodeInvoke kind method args ++ rest) = some (.invoke kind method args) := by
  have hCount : (UInt8.ofNat args.length).toNat = args.length :=
    UInt8.toNat_ofNat_of_lt (by simp only [UInt8.size]; omega)
  have hNibble : UInt8.ofNat args.length < 16 := by
    rw [UInt8.lt_iff_toNat_lt, hCount]
    exact Nat.lt_of_le_of_lt hLength (by decide)
  have hFifth : (if args.length = 5 then args.getD 4 0 else 0) < 16 := by
    split
    · next hFive =>
      rw [List.getD_eq_getElem?_getD, List.getElem?_eq_getElem (by omega)]
      exact hArgs _ (List.getElem_mem _)
    · decide
  simp only [encodeInvoke, List.cons_append, List.nil_append, decode?, lowByte_joinBytes,
    highByte_joinBytes, decodeShort?_invoke, decodeMiddle?_invoke, decodeLong?_invoke,
    highNibble_joinNibbles hNibble, lowNibble_joinNibbles hFifth, hCount, Option.none_or]
  rw [if_pos hLength, argumentNibbles_take hLength hArgs]

theorem decode?_encode {i : Instruction} (h : i.WellFormed) (rest : List UInt16) :
    decode? (i.encode ++ rest) = some i := by
  cases i with
  | invoke kind method args => exact decode?_encodeInvoke h.1 h.2 rest
  | invokeRange kind method first count =>
    simp only [encode, List.cons_append, List.nil_append, decode?, lowByte_joinBytes,
      highByte_joinBytes, decodeShort?_invokeRange, decodeMiddle?_invokeRange,
      decodeLong?_invokeRange, Option.none_or]
  | const4 dst value =>
    obtain ⟨hDst, hLow, hHigh⟩ := h
    simp only [encode, List.cons_append, List.nil_append, decode?, lowByte_joinBytes,
      highByte_joinBytes]
    have hShort : decodeShort? Opcode.const4 (joinNibbles dst value.toUInt8) =
        some (.const4 (lowNibble (joinNibbles dst value.toUInt8))
          (signedNibble (joinNibbles dst value.toUInt8))) := rfl
    rw [hShort, lowNibble_joinNibbles hDst, signedNibble_joinNibbles hDst hLow hHigh]
    rfl
  | newArray a b w | igetObject a b w | iputObject a b w =>
    simp only [encode, List.cons_append, List.nil_append, decode?, lowByte_joinBytes,
      highByte_joinBytes]
    obtain ⟨hFirst, hSecond⟩ := h
    simp only [decodeShort?, decodeMiddle?, lowNibble_joinNibbles hFirst,
      highNibble_joinNibbles hSecond]
    rfl
  | _ =>
    simp only [encode, List.cons_append, List.nil_append, decode?, lowByte_joinBytes,
      highByte_joinBytes, decodeShort?, decodeMiddle?, decodeLong?, joinUnits_lowUnit_highUnit]
    rfl

end DexForge.Instruction
