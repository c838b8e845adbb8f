import DexForge.Bytes.Mutf8
import DexForge.Proofs.Arithmetic
import DexForge.Proofs.Bytes.Position
import DexForge.Proofs.Text.Utf16

/-! # Reading modified UTF-8

A text is read back from its own bytes. The reader also takes longer forms of a unit, but no form
that holds a zero byte, and none that is shorter than the one that the writer takes.
-/
set_option autoImplicit false

namespace DexForge.Mutf8

open LittleEndian (toNat_byte)

theorem continuation?_of_byte {bytes : Bytes} {i x : Nat} (hx : x < 0x40)
    (h : bytes[i]? = some (UInt8.ofNat (0x80 + x))) : continuation? bytes i = some x := by
  have hByte : (UInt8.ofNat (0x80 + x)).toNat = 0x80 + x := toNat_byte (by omega)
  simp only [continuation?, h, hByte]
  rw [if_pos (by omega)]
  congr 1
  omega

theorem decodeUnits_of_lead {bytes : Bytes} {i : Nat} {lead : UInt8} (h : bytes[i]? = some lead)
    (read : Array UInt16) :
    decodeUnits bytes i read =
      if lead.toNat = 0 then some (read, i + 1)
      else if lead.toNat < 0x80 then decodeUnits bytes (i + 1) (read.push (UInt16.ofNat lead.toNat))
      else if lead.toNat / 0x20 = 6 then
        match continuation? bytes (i + 1) with
        | some x =>
          decodeUnits bytes (i + 2) (read.push (UInt16.ofNat (lead.toNat % 0x20 * 0x40 + x)))
        | none => none
      else if lead.toNat / 0x10 = 14 then
        match continuation? bytes (i + 1), continuation? bytes (i + 2) with
        | some x, some y =>
          decodeUnits bytes (i + 3)
            (read.push (UInt16.ofNat (lead.toNat % 0x10 * 0x1000 + x * 0x40 + y)))
        | _, _ => none
      else none := by
  obtain ⟨hBound, rfl⟩ := Array.getElem?_eq_some_iff.mp h
  rw [decodeUnits]
  exact dif_pos hBound

theorem decodeUnits_encodeUnit {bytes : Bytes} {i : Nat} {u : UInt16}
    (h : HoldsAt bytes i (encodeUnit u)) (read : Array UInt16) :
    decodeUnits bytes i read = decodeUnits bytes (i + (encodeUnit u).length) (read.push u) := by
  have hUnit := u.toNat_lt
  unfold encodeUnit at h ⊢
  by_cases hOne : 0 < u.toNat ∧ u.toNat < 0x80
  · rw [if_pos hOne] at h ⊢
    obtain ⟨hLead, -⟩ := HoldsAt.cons_iff.mp h
    have hByte : (UInt8.ofNat u.toNat).toNat = u.toNat := toNat_byte (by omega)
    rw [decodeUnits_of_lead hLead, hByte, if_neg (by omega), if_pos hOne.2, UInt16.ofNat_toNat]
    rfl
  · rw [if_neg hOne] at h ⊢
    by_cases hTwo : u.toNat < 0x800
    · rw [if_pos hTwo] at h ⊢
      obtain ⟨hLead, hRest⟩ := HoldsAt.cons_iff.mp h
      obtain ⟨hNext, -⟩ := HoldsAt.cons_iff.mp hRest
      have hByte : (UInt8.ofNat (0xc0 + u.toNat / 0x40)).toNat = 0xc0 + u.toNat / 0x40 :=
        toNat_byte (by omega)
      have hValue : (0xc0 + u.toNat / 0x40) % 0x20 * 0x40 + u.toNat % 0x40 = u.toNat := by omega
      rw [decodeUnits_of_lead hLead, hByte, if_neg (by omega), if_neg (by omega),
        if_pos (by omega), continuation?_of_byte (Nat.mod_lt _ (by decide)) hNext]
      simp only [hValue, UInt16.ofNat_toNat, List.length_cons, List.length_nil]
    · rw [if_neg hTwo] at h ⊢
      obtain ⟨hLead, hRest⟩ := HoldsAt.cons_iff.mp h
      obtain ⟨hNext, hRest⟩ := HoldsAt.cons_iff.mp hRest
      obtain ⟨hLast, -⟩ := HoldsAt.cons_iff.mp hRest
      have hByte : (UInt8.ofNat (0xe0 + u.toNat / 0x1000)).toNat = 0xe0 + u.toNat / 0x1000 :=
        toNat_byte (by omega)
      have hValue : (0xe0 + u.toNat / 0x1000) % 0x10 * 0x1000 + u.toNat / 0x40 % 0x40 * 0x40 +
          u.toNat % 0x40 = u.toNat := by omega
      rw [decodeUnits_of_lead hLead, hByte, if_neg (by omega), if_neg (by omega),
        if_neg (by omega), if_pos (by omega),
        continuation?_of_byte (Nat.mod_lt _ (by decide)) hNext,
        continuation?_of_byte (Nat.mod_lt _ (by decide)) hLast]
      simp only [hValue, UInt16.ofNat_toNat, List.length_cons, List.length_nil]

theorem decodeUnits_of_holdsAt {bytes : Bytes} {i : Nat} {units : List UInt16}
    (h : HoldsAt bytes i (units.flatMap encodeUnit ++ [0])) (read : Array UInt16) :
    decodeUnits bytes i read =
      some (read ++ units.toArray, i + (units.flatMap encodeUnit).length + 1) := by
  induction units generalizing i read with
  | nil =>
    obtain ⟨hZero, -⟩ := HoldsAt.cons_iff.mp h
    rw [decodeUnits_of_lead hZero]
    simp
  | cons u units ih =>
    rw [List.flatMap_cons, List.append_assoc] at h
    rw [decodeUnits_encodeUnit h.left, ih h.right]
    simp [Nat.add_assoc]

theorem decodeAt_of_holdsAt {bytes : Bytes} {i : Nat} {text : String}
    (h : HoldsAt bytes i (encode text ++ [0])) :
    decodeAt bytes i = some (text, i + (encode text).length + 1) := by
  rw [decodeAt, decodeUnits_of_holdsAt h]
  simp [Utf16.decode?_encode, encode]

variable {bytes : Bytes} {i stop : Nat} {units : List UInt16}

/-- The last byte from `i` to `stop` is the only zero byte among them, and the units take no more
room than the bytes in front of it. -/
structure Spells (bytes : Bytes) (i stop : Nat) (units : List UInt16) : Prop where
  zero : bytes[stop - 1]? = some 0
  first : ∀ k, i ≤ k → k < stop - 1 → bytes[k]? ≠ some 0
  room : i + (units.flatMap encodeUnit).length < stop

theorem Spells.stop_le (h : Spells bytes i stop units) : stop ≤ bytes.size := by
  obtain ⟨hLess, -⟩ := Array.getElem?_eq_some_iff.mp h.zero
  omega

theorem Spells.cons {u : UInt16} {width : Nat} (h : Spells bytes (i + width) stop units)
    (hWidth : (encodeUnit u).length ≤ width) (hBytes : ∀ k < width, bytes[i + k]? ≠ some 0) :
    Spells bytes i stop (u :: units) where
  zero := h.zero
  first k hLow hHigh := by
    by_cases hNear : k < i + width
    · have hPosition : i + (k - i) = k := by omega
      rw [← hPosition]
      exact hBytes (k - i) (by omega)
    · exact h.first k (by omega) hHigh
  room := by
    have hRoom := h.room
    rw [List.flatMap_cons, List.length_append]
    omega

theorem length_encodeUnit_le_two {u : UInt16} (h : u.toNat < 0x800) :
    (encodeUnit u).length ≤ 2 := by
  rw [encodeUnit]
  split
  · exact Nat.le_succ 1
  · exact Nat.le_refl 2

theorem length_encodeUnit_le (u : UInt16) : (encodeUnit u).length ≤ 3 := by
  by_cases hShort : u.toNat < 0x800
  · exact Nat.le_succ_of_le (length_encodeUnit_le_two hShort)
  · rw [encodeUnit, if_neg (by omega), if_neg hShort]
    exact Nat.le_refl 3

theorem of_continuation? {x : Nat} (h : continuation? bytes i = some x) :
    bytes[i]? ≠ some 0 ∧ x < 0x40 := by
  rw [continuation?] at h
  split at h
  · next b hByte =>
    split at h
    · next hForm =>
      cases h
      refine ⟨?_, Nat.mod_lt _ (by decide)⟩
      rintro hZero
      cases hByte.symm.trans hZero
      exact absurd hForm (by decide)
    · cases h
  · cases h

theorem lead_ne_zero (hBound : i < bytes.size) (h : bytes[i].toNat ≠ 0) : bytes[i]? ≠ some 0 := by
  intro hZero
  rw [Array.getElem?_eq_getElem hBound, Option.some.injEq] at hZero
  rw [hZero] at h
  exact h rfl

theorem exists_spells_push {read result : Array UInt16} {u : UInt16} {width : Nat}
    (h : ∃ units : List UInt16, result = read.push u ++ units.toArray ∧
      Spells bytes (i + width) stop units)
    (hWidth : (encodeUnit u).length ≤ width) (hBytes : ∀ k < width, bytes[i + k]? ≠ some 0) :
    ∃ units : List UInt16, result = read ++ units.toArray ∧ Spells bytes i stop units := by
  obtain ⟨units, rfl, hSpells⟩ := h
  refine ⟨u :: units, ?_, hSpells.cons hWidth hBytes⟩
  rw [Array.push_eq_append, Array.append_assoc]
  simp

/-- A unit stands in at least as many bytes as `encodeUnit` gives it. -/
theorem spells_of_decodeUnits {read result : Array UInt16}
    (h : decodeUnits bytes i read = some (result, stop)) :
    ∃ units : List UInt16, result = read ++ units.toArray ∧ Spells bytes i stop units := by
  fun_induction decodeUnits bytes i read with
  | case1 i read hBound lead hZero =>
    cases h
    have hByte : bytes[i] = 0 := UInt8.toNat_inj.mp hZero
    refine ⟨[], by simp, ?_, by omega, by simp⟩
    rw [Nat.add_sub_cancel, Array.getElem?_eq_getElem hBound, hByte]
  | case2 i read hBound lead hZero hShort ih =>
    have hUnit : (UInt16.ofNat lead).toNat = lead := Utf16.toNat_unit (by omega)
    apply exists_spells_push (ih h)
    · rw [encodeUnit, hUnit, if_pos (by omega)]
      exact Nat.le_refl 1
    · intro k hk
      obtain rfl : k = 0 := by omega
      exact lead_ne_zero hBound hZero
  | case3 i read hBound lead hZero hShort hTwo x hx ih =>
    obtain ⟨hNext, hLess⟩ := of_continuation? hx
    apply exists_spells_push (ih h)
    · apply length_encodeUnit_le_two
      rw [Utf16.toNat_unit (by omega)]
      omega
    · intro k hk
      obtain rfl | rfl : k = 0 ∨ k = 1 := by omega
      · exact lead_ne_zero hBound hZero
      · exact hNext
  | case5 i read hBound lead hZero hShort hTwo hThree x y hy hx ih =>
    apply exists_spells_push (ih h) (length_encodeUnit_le _)
    intro k hk
    obtain rfl | rfl | rfl : k = 0 ∨ k = 1 ∨ k = 2 := by omega
    · exact lead_ne_zero hBound hZero
    · exact (of_continuation? hx).1
    · exact (of_continuation? hy).1
  | case4 | case6 | case7 | case8 => cases h

theorem spells_of_decodeAt {text : String} (h : decodeAt bytes i = some (text, stop)) :
    Spells bytes i stop (Utf16.encode text) := by
  rw [decodeAt] at h
  split at h
  · next result last hUnits =>
    obtain ⟨text', hText, hPair⟩ := Option.map_eq_some_iff.mp h
    cases hPair
    obtain ⟨units, rfl, hSpells⟩ := spells_of_decodeUnits hUnits
    rw [Utf16.encode_of_decode? hText]
    simpa using hSpells
  · cases h

theorem encodeUnit_ne_nil (u : UInt16) : encodeUnit u ≠ [] := by
  rw [encodeUnit]
  split
  · simp
  · split <;> simp

theorem length_le_encode (text : String) : Utf16.length text ≤ (encode text).length := by
  rw [Utf16.length_eq]
  exact length_le_flatMap encodeUnit_ne_nil (Utf16.encode text)

theorem zero_not_mem_encodeUnit (u : UInt16) : 0 ∉ encodeUnit u := by
  have hUnit := u.toNat_lt
  have hByte : ∀ n, 0 < n → n < 0x100 → UInt8.ofNat n ≠ 0 := by
    intro n hPositive hLess hZero
    have hValue := toNat_byte hLess
    rw [hZero] at hValue
    exact absurd hValue (Nat.ne_of_lt hPositive)
  rw [encodeUnit]
  split
  · next hOne =>
    rw [List.mem_singleton]
    exact (hByte _ hOne.1 (by omega)).symm
  · split
    · simp only [List.mem_cons, List.not_mem_nil, or_false, not_or]
      exact ⟨(hByte _ (by omega) (by omega)).symm, (hByte _ (by omega) (by omega)).symm⟩
    · simp only [List.mem_cons, List.not_mem_nil, or_false, not_or]
      exact ⟨(hByte _ (by omega) (by omega)).symm, (hByte _ (by omega) (by omega)).symm,
        (hByte _ (by omega) (by omega)).symm⟩

theorem zero_not_mem_encode (text : String) : 0 ∉ encode text := by
  intro hMem
  obtain ⟨u, -, hZero⟩ := List.mem_flatMap.mp hMem
  exact zero_not_mem_encodeUnit u hZero

theorem encodeCounted?_eq (text : String) :
    encodeCounted? text =
      if (Utf16.encode text).length < 0x100000000 then
        some (encode text, UInt32.ofNat (Utf16.encode text).length)
      else none := by
  have hTotal : (((Utf16.encode text).map fun _ => (1 : UInt32)).map UInt32.toNat).sum =
      (Utf16.encode text).length := by
    rw [List.map_map, Function.comp_def, UInt32.toNat_one, List.map_const', List.sum_replicate_nat,
      Nat.mul_one]
  rw [encodeCounted?, Arithmetic.checked_sum32, hTotal]
  split <;> rfl

theorem encode_replicate (count : Nat) :
    (Utf16.encode (String.ofList (List.replicate count 'a'))).length = count := by
  have hUnit : (Utf16.ofChar 'a').length = 1 := rfl
  rw [Utf16.encode, String.toList_ofList, List.length_flatMap, List.map_replicate,
    List.sum_replicate_nat, hUnit, Nat.mul_one]

end DexForge.Mutf8
