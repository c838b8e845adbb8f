import DexForge.Text.Utf16

/-! # UTF-16 units determine the text

So texts that compare equal by their units are the same text.
-/
set_option autoImplicit false

namespace DexForge.Utf16

theorem toNat_unit {n : Nat} (h : n < 0x10000) : (UInt16.ofNat n).toNat = n :=
  UInt16.toNat_ofNat_of_lt h

theorem isHigh_iff (u : UInt16) : isHigh u = true ↔ 0xd800 ≤ u.toNat ∧ u.toNat < 0xdc00 := by
  simp [isHigh, UInt16.le_iff_toNat_le, UInt16.lt_iff_toNat_lt]

theorem isLow_iff (u : UInt16) : isLow u = true ↔ 0xdc00 ≤ u.toNat ∧ u.toNat < 0xe000 := by
  simp [isLow, UInt16.le_iff_toNat_le, UInt16.lt_iff_toNat_lt]

theorem valid_toNat (c : Char) : c.toNat < 0xd800 ∨ 0xdfff < c.toNat ∧ c.toNat < 0x110000 :=
  c.valid

theorem ofChar_basic {c : Char} (h : c.toNat < 0x10000) : ofChar c = [UInt16.ofNat c.toNat] := by
  simp only [ofChar, if_pos h]

theorem ofChar_supplementary {c : Char} (h : 0x10000 ≤ c.toNat) :
    ofChar c = [UInt16.ofNat (0xd800 + (c.toNat - 0x10000) / 0x400),
      UInt16.ofNat (0xdc00 + (c.toNat - 0x10000) % 0x400)] := by
  simp only [ofChar]
  rw [if_neg (by omega)]

theorem decodeFrom_ofChar (read : List Char) (c : Char) (rest : List UInt16) :
    decodeFrom read (ofChar c ++ rest) = decodeFrom (c :: read) rest := by
  have hValid := valid_toNat c
  by_cases hBasic : c.toNat < 0x10000
  · have hUnit := toNat_unit hBasic
    have hHigh : isHigh (UInt16.ofNat c.toNat) = false := by
      rw [Bool.eq_false_iff, Ne, isHigh_iff, hUnit]; omega
    have hLow : isLow (UInt16.ofNat c.toNat) = false := by
      rw [Bool.eq_false_iff, Ne, isLow_iff, hUnit]; omega
    rw [ofChar_basic hBasic, List.singleton_append, decodeFrom.eq_def]
    simp only [hHigh, hLow, Bool.false_eq_true, if_false, hUnit, Char.ofNat_toNat]
  · rw [ofChar_supplementary (by omega)]
    have hFirst : (UInt16.ofNat (0xd800 + (c.toNat - 0x10000) / 0x400)).toNat =
        0xd800 + (c.toNat - 0x10000) / 0x400 := toNat_unit (by omega)
    have hSecond : (UInt16.ofNat (0xdc00 + (c.toNat - 0x10000) % 0x400)).toNat =
        0xdc00 + (c.toNat - 0x10000) % 0x400 := toNat_unit (by omega)
    have hHigh : isHigh (UInt16.ofNat (0xd800 + (c.toNat - 0x10000) / 0x400)) = true := by
      rw [isHigh_iff, hFirst]; omega
    have hLow : isLow (UInt16.ofNat (0xdc00 + (c.toNat - 0x10000) % 0x400)) = true := by
      rw [isLow_iff, hSecond]; omega
    have hPoint : 0x10000 + (0xd800 + (c.toNat - 0x10000) / 0x400 - 0xd800) * 0x400 +
        (0xdc00 + (c.toNat - 0x10000) % 0x400 - 0xdc00) = c.toNat := by omega
    rw [List.cons_append, List.singleton_append, decodeFrom.eq_def]
    simp only [hHigh, hLow, if_true, combine, hFirst, hSecond, hPoint, Char.ofNat_toNat]

theorem decodeFrom_flatMap (read cs : List Char) :
    decodeFrom read (cs.flatMap ofChar) = some (read.reverse ++ cs) := by
  induction cs generalizing read with
  | nil => simp [decodeFrom]
  | cons c cs ih =>
    rw [List.flatMap_cons, decodeFrom_ofChar, ih]
    simp

theorem decode?_encode (text : String) : decode? (encode text) = some text := by
  rw [decode?, encode, decodeFrom_flatMap]
  simp

theorem encode_injective {a b : String} (h : encode a = encode b) : a = b := by
  have hDecode := decode?_encode a
  rw [h, decode?_encode] at hDecode
  exact (Option.some.inj hDecode).symm

instance : Std.TransCmp order := inferInstanceAs (Std.TransCmp (compareOn encode))

instance : Std.LawfulEqCmp order where
  compare_self := Std.ReflCmp.compare_self
  eq_of_compare h := encode_injective (Std.LawfulEqOrd.eq_of_compare h)

theorem toNat_ofNat {n : Nat} (h : n < 0xd800 ∨ 0xdfff < n ∧ n < 0x110000) :
    (Char.ofNat n).toNat = n := by
  have hValid : n.isValidChar := h
  rw [Char.ofNat, dif_pos hValid]
  rfl

theorem ofChar_ofNat {u : UInt16} (hHigh : ¬ isHigh u = true) (hLow : ¬ isLow u = true) :
    ofChar (Char.ofNat u.toNat) = [u] := by
  have hUnit := u.toNat_lt
  rw [isHigh_iff] at hHigh
  rw [isLow_iff] at hLow
  have hPoint : (Char.ofNat u.toNat).toNat = u.toNat := toNat_ofNat (by omega)
  rw [ofChar_basic (by omega), hPoint, UInt16.ofNat_toNat]

theorem ofChar_combine {u v : UInt16} (hHigh : isHigh u = true) (hLow : isLow v = true) :
    ofChar (combine u v) = [u, v] := by
  rw [isHigh_iff] at hHigh
  rw [isLow_iff] at hLow
  have hPoint : (combine u v).toNat =
      0x10000 + (u.toNat - 0xd800) * 0x400 + (v.toNat - 0xdc00) := toNat_ofNat (by omega)
  have hFirst : 0xd800 + ((combine u v).toNat - 0x10000) / 0x400 = u.toNat := by omega
  have hSecond : 0xdc00 + ((combine u v).toNat - 0x10000) % 0x400 = v.toNat := by omega
  rw [ofChar_supplementary (by omega), hFirst, hSecond, UInt16.ofNat_toNat, UInt16.ofNat_toNat]

theorem of_decodeFrom {read cs : List Char} {units : List UInt16}
    (h : decodeFrom read units = some cs) :
    ∃ new, cs = read.reverse ++ new ∧ units = new.flatMap ofChar := by
  fun_induction decodeFrom read units with
  | case1 read =>
    cases h
    exact ⟨[], by simp, rfl⟩
  | case2 read u hHigh v tail hLow ih =>
    obtain ⟨new, rfl, rfl⟩ := ih h
    refine ⟨combine u v :: new, by simp, ?_⟩
    rw [List.flatMap_cons, ofChar_combine hHigh hLow]
    rfl
  | case3 | case4 | case5 => cases h
  | case6 read u rest hHigh hLow ih =>
    obtain ⟨new, rfl, rfl⟩ := ih h
    refine ⟨Char.ofNat u.toNat :: new, by simp, ?_⟩
    rw [List.flatMap_cons, ofChar_ofNat hHigh hLow]
    rfl

theorem encode_of_decode? {units : List UInt16} {text : String} (h : decode? units = some text) :
    encode text = units := by
  obtain ⟨cs, hRead, rfl⟩ := Option.map_eq_some_iff.mp h
  obtain ⟨new, rfl, hUnits⟩ := of_decodeFrom hRead
  rw [hUnits, encode]
  simp

theorem length_ofChar (c : Char) : (ofChar c).length = if c.toNat < 0x10000 then 1 else 2 := by
  by_cases hBasic : c.toNat < 0x10000
  · rw [ofChar_basic hBasic, if_pos hBasic]
    rfl
  · rw [ofChar_supplementary (by omega), if_neg hBasic]
    rfl

theorem foldl_length (start : Nat) (cs : List Char) :
    cs.foldl (fun n c => n + if c.toNat < 0x10000 then 1 else 2) start =
      start + (cs.flatMap ofChar).length := by
  induction cs generalizing start with
  | nil => simp
  | cons c cs ih =>
    rw [List.foldl_cons, ih, List.flatMap_cons, List.length_append, length_ofChar]
    omega

theorem length_eq (text : String) : length text = (encode text).length := by
  rw [length, foldl_length, encode, Nat.zero_add]

end DexForge.Utf16
