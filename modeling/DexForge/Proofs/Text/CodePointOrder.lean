import DexForge.Proofs.Order.FirstDifference
import DexForge.Proofs.Text.Utf16

/-! # The order of units and the order of code points

The units order texts as their code points do, but for the characters above U+FFFF: their surrogates
put them in front of U+E000 to U+FFFF.
-/
set_option autoImplicit false

namespace DexForge.Utf16

def codePoints (text : String) : List Nat := text.toList.map Char.toNat

/-- `c` needs surrogates, and `d` is a single unit above all surrogates. -/
def Undercuts (c d : Char) : Prop := 0xffff < c.toNat ∧ 0xe000 ≤ d.toNat ∧ d.toNat ≤ 0xffff

instance (c d : Char) : Decidable (Undercuts c d) :=
  inferInstanceAs (Decidable (0xffff < c.toNat ∧ 0xe000 ≤ d.toNat ∧ d.toNat ≤ 0xffff))

/-- At the first difference of the texts, the character of `a` undercuts that of `b`. -/
def Overtakes (a b : String) : Prop :=
  ∃ pair ∈ firstDifference? a.toList b.toList, Undercuts pair.1 pair.2

instance (a b : String) : Decidable (Overtakes a b) :=
  inferInstanceAs (Decidable (∃ pair ∈ firstDifference? a.toList b.toList, Undercuts pair.1 pair.2))

/-- The characters numbered in the order of their units: U+E000 to U+FFFF stand behind all others. -/
def weight (c : Char) : Nat :=
  if 0xe000 ≤ c.toNat ∧ c.toNat ≤ 0xffff then c.toNat + 0x110000 else c.toNat

theorem weight_lt_iff {c d : Char} :
    weight c < weight d ↔ Undercuts c d ∨ c.toNat < d.toNat ∧ ¬Undercuts d c := by
  have hc := valid_toNat c
  have hd := valid_toNat d
  unfold weight Undercuts
  split <;> split <;> omega

theorem weight_injective : Function.Injective weight := by
  intro c d h
  have hc := valid_toNat c
  have hd := valid_toNat d
  apply Char.toNat_inj.mp
  unfold weight at h
  split at h <;> split at h <;> omega

theorem toNat_injective : Function.Injective Char.toNat := fun _ _ => Char.toNat_inj.mp

theorem compare_weight_of_undercuts {c d : Char} (h : Undercuts c d) :
    compare (weight c) (weight d) = .lt :=
  Nat.compare_eq_lt.mpr (weight_lt_iff.mpr (.inl h))

theorem compare_weight {c d : Char} (h : ¬Undercuts c d) (h' : ¬Undercuts d c) :
    compare (weight c) (weight d) = compare c.toNat d.toNat := by
  have hLess : weight c < weight d ↔ c.toNat < d.toNat := by simp [weight_lt_iff, h, h']
  have hGreater : weight d < weight c ↔ d.toNat < c.toNat := by simp [weight_lt_iff, h, h']
  obtain hPoint | hPoint | hPoint := Nat.lt_trichotomy c.toNat d.toNat
  · rw [Nat.compare_eq_lt.mpr hPoint, Nat.compare_eq_lt.mpr (hLess.mpr hPoint)]
  · rw [Char.toNat_inj.mp hPoint, Std.ReflOrd.compare_self, Std.ReflOrd.compare_self]
  · rw [Nat.compare_eq_gt.mpr hPoint, Nat.compare_eq_gt.mpr (hGreater.mpr hPoint)]

theorem compare_units_lt {m n : Nat} (hLess : m < n) (hFits : n < 0x10000) (us vs : List UInt16) :
    compare (UInt16.ofNat m :: us) (UInt16.ofNat n :: vs) = .lt := by
  have hCmp : compare (UInt16.ofNat m) (UInt16.ofNat n) = .lt := by
    rw [UInt16.compare_eq_toNat_compare_toNat, toNat_unit hFits, toNat_unit (hLess.trans hFits)]
    exact Nat.compare_eq_lt.mpr hLess
  rw [List.compare_cons_cons, hCmp]
  rfl

/-- The first unit of a character; `trail` is the second one, where there is one. -/
def lead (c : Char) : Nat :=
  if c.toNat < 0x10000 then c.toNat else 0xd800 + (c.toNat - 0x10000) / 0x400

def trail (c : Char) : Nat := 0xdc00 + (c.toNat - 0x10000) % 0x400

theorem ofChar_eq (c : Char) :
    ofChar c =
      UInt16.ofNat (lead c) :: if c.toNat < 0x10000 then [] else [UInt16.ofNat (trail c)] := by
  unfold lead trail
  split
  next hBasic => exact ofChar_basic hBasic
  next hSupplementary => exact ofChar_supplementary (Nat.le_of_not_lt hSupplementary)

theorem lead_lt (c : Char) : lead c < 0x10000 := by
  have hc := valid_toNat c
  unfold lead
  split <;> omega

theorem trail_lt (c : Char) : trail c < 0x10000 := by
  unfold trail
  omega

/-- Characters that start with the same unit are two characters above U+FFFF. -/
theorem lead_lt_or_trail_lt {c d : Char} (h : weight c < weight d) :
    lead c < lead d ∨
      lead c = lead d ∧ trail c < trail d ∧ ¬c.toNat < 0x10000 ∧ ¬d.toNat < 0x10000 := by
  have hc := valid_toNat c
  have hd := valid_toNat d
  rw [weight_lt_iff, Undercuts, Undercuts] at h
  unfold lead trail
  split <;> split <;> omega

theorem compare_ofChar_lt {c d : Char} (h : weight c < weight d) (us vs : List UInt16) :
    compare (ofChar c ++ us) (ofChar d ++ vs) = .lt := by
  rw [ofChar_eq, ofChar_eq]
  -- characters differ within their own units, so what follows them is not looked at
  obtain hLead | ⟨hLead, hTrail, hc, hd⟩ := lead_lt_or_trail_lt h
  · exact compare_units_lt hLead (lead_lt d) _ _
  · rw [hLead, if_neg hc, if_neg hd]
    exact (compare_append [_] _ _).trans (compare_units_lt hTrail (trail_lt d) _ _)

theorem compare_ofChar {c d : Char} (h : c ≠ d) (us vs : List UInt16) :
    compare (ofChar c ++ us) (ofChar d ++ vs) = compare (weight c) (weight d) := by
  obtain hLess | hSame | hGreater := Nat.lt_trichotomy (weight c) (weight d)
  · rw [compare_ofChar_lt hLess, Nat.compare_eq_lt.mpr hLess]
  · exact absurd (weight_injective hSame) h
  · rw [Nat.compare_eq_gt.mpr hGreater, Std.OrientedCmp.gt_iff_lt]
    exact compare_ofChar_lt hGreater vs us

theorem compare_flatMap_ofChar (cs ds : List Char) :
    compare (cs.flatMap ofChar) (ds.flatMap ofChar) = compare (cs.map weight) (ds.map weight) := by
  induction cs generalizing ds with
  | nil =>
    cases ds with
    | nil => rfl
    | cons d ds =>
      rw [List.flatMap_cons, ofChar_eq]
      rfl
  | cons c cs ih =>
    cases ds with
    | nil =>
      rw [List.flatMap_cons, ofChar_eq]
      rfl
    | cons d ds =>
      rw [List.flatMap_cons, List.flatMap_cons, List.map_cons, List.map_cons]
      by_cases hSame : c = d
      · subst hSame
        rw [compare_append, ih, List.compare_cons_cons, Std.ReflOrd.compare_self]
        rfl
      · rw [compare_ofChar hSame, compare_cons_of_ne (weight_injective.ne hSame)]

theorem order_eq_compare_weights (a b : String) :
    order a b = compare (a.toList.map weight) (b.toList.map weight) :=
  compare_flatMap_ofChar a.toList b.toList

theorem order_of_overtakes {a b : String} (h : Overtakes a b) : order a b = .lt := by
  obtain ⟨⟨c, d⟩, hDiffer, hUndercuts⟩ := h
  rw [order_eq_compare_weights, compare_map_of_firstDifference? weight_injective hDiffer,
    compare_weight_of_undercuts hUndercuts]

theorem order_of_not_overtakes {a b : String} (h : ¬Overtakes a b) (h' : ¬Overtakes b a) :
    order a b = compare (codePoints a) (codePoints b) := by
  rw [order_eq_compare_weights]
  refine compare_map_congr weight_injective toNat_injective ?_
  intro c d hDiffer
  exact compare_weight (fun hUndercuts => h ⟨_, hDiffer, hUndercuts⟩)
    fun hUndercuts => h' ⟨_, firstDifference?_swap hDiffer, hUndercuts⟩

/-- The units order texts totally. The order is that of the code points, except where a character
above U+FFFF meets one of U+E000 to U+FFFF at the first difference: there the text with the former
comes first. -/
theorem order_total_by_codePoints :
    IsTotalOrder order ∧ ∀ a b : String,
      order a b =
        if Overtakes a b then .lt
        else if Overtakes b a then .gt
        else compare (codePoints a) (codePoints b) := by
  refine ⟨isTotalOrder order, fun a b => ?_⟩
  split
  next hFirst => exact order_of_overtakes hFirst
  next hNotFirst =>
    split
    next hSecond => exact Std.OrientedCmp.gt_iff_lt.mpr (order_of_overtakes hSecond)
    next hNotSecond => exact order_of_not_overtakes hNotFirst hNotSecond

example : order "a😀" "a\uffff" = .lt ∧ compare (codePoints "a😀") (codePoints "a\uffff") = .gt := by
  decide

end DexForge.Utf16
