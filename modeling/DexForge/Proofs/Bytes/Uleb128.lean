import DexForge.Bytes.Uleb128
import DexForge.Proofs.Bytes.Position
import Mathlib.Data.Nat.Digits.Defs

/-! # Groups of an unsigned LEB128 value

A group is a run of bytes with the continuation bit and one byte without it behind them. The reader
takes every group of up to five bytes that denotes a number of 32 bits, and the writer takes the
shortest of those that denote its number.
-/
set_option autoImplicit false

namespace DexForge.Uleb128

variable {bytes : Bytes} {group : List UInt8} {i next : Nat} {value : UInt32}

def IsGroup (group : List UInt8) : Prop :=
  ∃ leads last, group = leads ++ [last] ∧ (∀ b ∈ leads, 0x80 ≤ b.toNat) ∧ last.toNat < 0x80

/-- What the payloads denote, seven bits each, the lowest first. -/
def number (group : List UInt8) : Nat := Nat.ofDigits 0x80 (group.map fun b => b.toNat % 0x80)

theorem IsGroup.ne_nil (h : IsGroup group) : group ≠ [] := by
  obtain ⟨leads, last, rfl, -, -⟩ := h
  simp

theorem isGroup_cons_iff {b : UInt8} {rest : List UInt8} :
    IsGroup (b :: rest) ↔ b.toNat < 0x80 ∧ rest = [] ∨ 0x80 ≤ b.toNat ∧ IsGroup rest := by
  constructor
  · rintro ⟨leads, last, hGroup, hLeads, hLast⟩
    cases leads with
    | nil =>
      cases hGroup
      exact .inl ⟨hLast, rfl⟩
    | cons lead leads =>
      cases hGroup
      rw [List.forall_mem_cons] at hLeads
      exact .inr ⟨hLeads.1, leads, last, rfl, hLeads.2, hLast⟩
  · rintro (⟨hLast, rfl⟩ | ⟨hLead, leads, last, rfl, hLeads, hLast⟩)
    · exact ⟨[], b, rfl, by simp, hLast⟩
    · exact ⟨b :: leads, last, rfl, List.forall_mem_cons.mpr ⟨hLead, hLeads⟩, hLast⟩

theorem number_cons (b : UInt8) (rest : List UInt8) :
    number (b :: rest) = b.toNat % 0x80 + 0x80 * number rest := rfl

theorem number_lt (group : List UInt8) : number group < 0x80 ^ group.length := by
  have hLess := Nat.ofDigits_lt_base_pow_length (b := 0x80)
    (l := group.map fun b => b.toNat % 0x80) (by decide) ?_
  · simpa [number] using hLess
  · intro digit hDigit
    obtain ⟨b, -, rfl⟩ := List.mem_map.mp hDigit
    exact Nat.mod_lt _ (by decide)

theorem exists_group_iff {P : List UInt8 → Prop} :
    (∃ group, IsGroup group ∧ HoldsAt bytes i group ∧ P group) ↔
      ∃ b, bytes[i]? = some b ∧ (b.toNat < 0x80 ∧ P [b] ∨
        0x80 ≤ b.toNat ∧ ∃ rest, IsGroup rest ∧ HoldsAt bytes (i + 1) rest ∧ P (b :: rest)) := by
  constructor
  · rintro ⟨group, hGroup, hHolds, hP⟩
    cases group with
    | nil => exact absurd rfl hGroup.ne_nil
    | cons b rest =>
      obtain ⟨hByte, hRest⟩ := HoldsAt.cons_iff.mp hHolds
      refine ⟨b, hByte, ?_⟩
      obtain ⟨hLast, rfl⟩ | ⟨hLead, hGroup⟩ := isGroup_cons_iff.mp hGroup
      · exact .inl ⟨hLast, hP⟩
      · exact .inr ⟨hLead, rest, hGroup, hRest, hP⟩
  · rintro ⟨b, hByte, ⟨hLast, hP⟩ | ⟨hLead, rest, hGroup, hRest, hP⟩⟩
    · exact ⟨[b], isGroup_cons_iff.mpr (.inl ⟨hLast, rfl⟩),
        HoldsAt.cons_iff.mpr ⟨hByte, List.nil_prefix⟩, hP⟩
    · exact ⟨b :: rest, isGroup_cons_iff.mpr (.inr ⟨hLead, hGroup⟩),
        HoldsAt.cons_iff.mpr ⟨hByte, hRest⟩, hP⟩

theorem last_fits_iff {payload left : Nat} (h : payload < 0x80) :
    payload * 8 < 0x80 ^ (left + 1) ↔ ¬ (left = 0 ∧ 0x0f < payload) := by
  cases left with
  | zero => omega
  | succ left =>
    have hPower : 0 < 0x80 ^ left := Nat.pow_pos (by decide)
    rw [Nat.pow_succ, Nat.pow_succ]
    omega

theorem lead_fits_iff {payload rest left : Nat} (h : payload < 0x80) (hLeft : 0 < left) :
    (payload + 0x80 * rest) * 8 < 0x80 ^ (left + 1) ↔ rest * 8 < 0x80 ^ left := by
  obtain ⟨left, rfl⟩ := Nat.exists_eq_succ_of_ne_zero (Nat.ne_of_gt hLeft)
  rw [Nat.pow_succ, Nat.pow_succ]
  omega

/-- With `left` bytes to go the reader takes every group that denotes a number of `7 * left - 3`
bits. -/
theorem decodeFrom_eq_some_iff {left weight sum : Nat} :
    decodeFrom bytes left weight sum i = (some value, next) ↔
      ∃ group, IsGroup group ∧ HoldsAt bytes i group ∧ group.length ≤ left ∧
        number group * 8 < 0x80 ^ left ∧ value = UInt32.ofNat (sum + number group * weight) ∧
        next = i + group.length := by
  induction left generalizing weight sum i with
  | zero =>
    simp only [decodeFrom, Prod.mk.injEq, reduceCtorEq, false_and, false_iff, not_exists, not_and]
    intro group hGroup _ hLength
    exact absurd (List.eq_nil_of_length_eq_zero (Nat.le_zero.mp hLength)) hGroup.ne_nil
  | succ left ih =>
    rw [exists_group_iff, decodeFrom]
    cases hByte : bytes[i]? with
    | none => simp
    | some b =>
      have hPayload : b.toNat % 0x80 < 0x80 := Nat.mod_lt _ (by decide)
      simp only [Option.some.injEq, exists_eq_left']
      by_cases hLast : b.toNat < 0x80
      · have hNumber : number [b] = b.toNat % 0x80 := by simp [number]
        simp only [hNumber, last_fits_iff hPayload, hLast, Nat.not_le.mpr hLast, true_and, false_and,
          or_false, if_true, List.length_singleton]
        split
        · next hLarge => simp [hLarge]
        · next hSmall => simp [hSmall, eq_comm]
      · have hLead := Nat.not_lt.mp hLast
        simp only [hLast, hLead, false_and, true_and, false_or, if_false, number_cons,
          List.length_cons]
        by_cases hLeft : left = 0
        · -- a fifth byte that wants another one is refused, whatever its payload
          subst hLeft
          have hNone : ∀ rest, IsGroup rest → ¬ rest.length + 1 ≤ 0 + 1 := by
            intro rest hRest hLength
            exact hRest.ne_nil (List.eq_nil_of_length_eq_zero (by omega))
          simp only [decodeFrom]
          constructor
          · intro h
            split at h <;> cases h
          · rintro ⟨rest, hRest, -, hLength, -⟩
            exact absurd hLength (hNone rest hRest)
        · rw [if_neg (by omega), ih]
          apply exists_congr
          intro rest
          rw [lead_fits_iff hPayload (Nat.pos_of_ne_zero hLeft), Nat.add_le_add_iff_right]
          have hSum : sum + b.toNat % 0x80 * weight + number rest * (weight * 0x80) =
              sum + (b.toNat % 0x80 + 0x80 * number rest) * weight := by ring
          rw [hSum, Nat.add_assoc i 1, Nat.add_comm 1]

theorem decodeAt_eq_some_iff : decodeAt bytes i = (some value, next) ↔
    ∃ group, IsGroup group ∧ HoldsAt bytes i group ∧ group.length ≤ 5 ∧
      number group < 0x100000000 ∧ value.toNat = number group ∧ next = i + group.length := by
  rw [decodeAt, decodeFrom_eq_some_iff]
  apply exists_congr
  intro group
  have hBits : number group * 8 < 0x80 ^ 5 ↔ number group < 0x100000000 := by omega
  rw [hBits, Nat.zero_add, Nat.mul_one]
  refine and_congr_right fun _ => and_congr_right fun _ => and_congr_right fun _ =>
    and_congr_right fun hNumber => and_congr_left fun _ => ?_
  have hWord : (UInt32.ofNat (number group)).toNat = number group :=
    UInt32.toNat_ofNat_of_lt hNumber
  rw [← UInt32.toNat_inj, hWord]

theorem bounds_of_decodeAt (h : decodeAt bytes i = (some value, next)) :
    i < next ∧ next ≤ bytes.size := by
  obtain ⟨group, hGroup, hHolds, -, -, -, rfl⟩ := decodeAt_eq_some_iff.mp h
  have hLength := List.length_pos_iff.mpr hGroup.ne_nil
  exact ⟨by omega, hHolds.stop_le hGroup.ne_nil⟩

theorem encodeNat_small {n : Nat} (h : n < 0x80) : encodeNat n = [UInt8.ofNat n] := by
  rw [encodeNat, if_pos h]

theorem encodeNat_large {n : Nat} (h : 0x80 ≤ n) :
    encodeNat n = UInt8.ofNat (n % 0x80 + 0x80) :: encodeNat (n / 0x80) := by
  rw [encodeNat, if_neg (by omega)]

theorem isGroup_encodeNat (n : Nat) : IsGroup (encodeNat n) ∧ number (encodeNat n) = n := by
  induction n using Nat.strongRecOn with
  | ind n ih =>
    by_cases hSmall : n < 0x80
    · have hByte : (UInt8.ofNat n).toNat = n := LittleEndian.toNat_byte (by omega)
      rw [encodeNat_small hSmall, isGroup_cons_iff, number_cons, hByte]
      refine ⟨.inl ⟨hSmall, rfl⟩, ?_⟩
      simp [number, Nat.mod_eq_of_lt hSmall]
    · obtain ⟨hGroup, hNumber⟩ := ih (n / 0x80) (by omega)
      have hByte : (UInt8.ofNat (n % 0x80 + 0x80)).toNat = n % 0x80 + 0x80 :=
        LittleEndian.toNat_byte (by omega)
      rw [encodeNat_large (by omega), isGroup_cons_iff, number_cons, hByte, hNumber]
      exact ⟨.inr ⟨by omega, hGroup⟩, by omega⟩

theorem encode_ne_nil (value : UInt32) : encode value ≠ [] :=
  (isGroup_encodeNat value.toNat).1.ne_nil

theorem length_encodeNat {n k : Nat} (hLow : 0 < k → 0x80 ^ k ≤ n) (hHigh : n < 0x80 ^ (k + 1)) :
    (encodeNat n).length = k + 1 := by
  induction k generalizing n with
  | zero =>
    rw [encodeNat_small (by simpa using hHigh)]
    rfl
  | succ k ih =>
    have hPower : 0 < 0x80 ^ k := Nat.pow_pos (by decide)
    have hLarge := hLow (Nat.succ_pos k)
    rw [Nat.pow_succ] at hLarge hHigh
    rw [encodeNat_large (by omega), List.length_cons, ih (by omega) (by omega)]

theorem length_encode (value : UInt32) : (encode value).length = length value := by
  have hValue := value.toNat_lt
  rw [encode, length]
  split
  · exact length_encodeNat (k := 0) (by omega) (by omega)
  split
  · exact length_encodeNat (k := 1) (by omega) (by omega)
  split
  · exact length_encodeNat (k := 2) (by omega) (by omega)
  split
  · exact length_encodeNat (k := 3) (by omega) (by omega)
  · exact length_encodeNat (k := 4) (by omega) (by omega)

theorem length_encode_le (value : UInt32) : (encode value).length ≤ 5 := by
  rw [length_encode, length]
  grind

theorem decodeAt_of_holdsAt (h : HoldsAt bytes i (encode value)) :
    decodeAt bytes i = (some value, i + (encode value).length) := by
  obtain ⟨hGroup, hNumber⟩ := isGroup_encodeNat value.toNat
  apply decodeAt_eq_some_iff.mpr
  exact ⟨encode value, hGroup, h, length_encode_le value, hNumber.symm ▸ value.toNat_lt, hNumber.symm,
    rfl⟩

theorem length_le_of_lt {k : Nat} (h : value.toNat < 0x80 ^ k) (hPositive : 0 < k) :
    length value ≤ k := by
  have hPower : ∀ m, k ≤ m → value.toNat < 0x80 ^ m := fun m hm =>
    Nat.lt_of_lt_of_le h (Nat.pow_le_pow_right (by decide) hm)
  by_contra hShort
  rw [length] at hShort
  split at hShort
  · omega
  split at hShort
  · have hLess := hPower 1 (by omega)
    omega
  split at hShort
  · have hLess := hPower 2 (by omega)
    omega
  split at hShort
  · have hLess := hPower 3 (by omega)
    omega
  · have hLess := hPower 4 (by omega)
    omega

theorem length_le_of_decodeAt (h : decodeAt bytes i = (some value, next)) :
    i + length value ≤ next := by
  obtain ⟨group, hGroup, -, -, -, hNumber, rfl⟩ := decodeAt_eq_some_iff.mp h
  have hLess := number_lt group
  rw [← hNumber] at hLess
  have hLength := length_le_of_lt hLess (List.length_pos_iff.mpr hGroup.ne_nil)
  omega

/-- The reader takes exactly the groups of up to five bytes that denote a number of 32 bits. It reads
every value back from where the writer put it, and from nowhere with fewer bytes. -/
theorem decodeAt_group_shortest :
    (∀ (bytes : Bytes) (i next : Nat) (value : UInt32), decodeAt bytes i = (some value, next) ↔
      ∃ group, IsGroup group ∧ HoldsAt bytes i group ∧ group.length ≤ 5 ∧
        number group < 0x100000000 ∧ value.toNat = number group ∧ next = i + group.length) ∧
    ∀ value : UInt32, (encode value).length = length value ∧
      (∀ front back : List UInt8, decodeAt (front ++ encode value ++ back).toArray front.length =
        (some value, front.length + length value)) ∧
      ∀ (bytes : Bytes) (i next : Nat), decodeAt bytes i = (some value, next) →
        i + length value ≤ next := by
  refine ⟨fun _ _ _ _ => decodeAt_eq_some_iff, fun value => ⟨length_encode value, ?_, ?_⟩⟩
  · intro front back
    rw [← length_encode]
    exact decodeAt_of_holdsAt (HoldsAt.of_split rfl)
  · intro bytes i next h
    exact length_le_of_decodeAt h

theorem decodeAt_group_shortest_padded :
    decodeAt #[0xff, 0x85, 0x80, 0x00] 1 = (some 5, 4) ∧ 1 + length 5 ≤ 4 := by
  have hRead : decodeAt #[0xff, 0x85, 0x80, 0x00] 1 = (some 5, 4) := by decide
  exact ⟨hRead, (decodeAt_group_shortest.2 5).2.2 _ _ _ hRead⟩

end DexForge.Uleb128
