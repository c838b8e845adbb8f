import DexForge.Arithmetic
import Mathlib.Algebra.GroupWithZero.Nat

/-! # Sums of machine words

A checked sum is there exactly when the numbers that it adds make one of its type.
-/
set_option autoImplicit false

namespace DexForge.Arithmetic

variable {arithmetic : Arithmetic}

@[simp] theorem keep_true {α : Type} (sum : α) : arithmetic.keep true sum = some sum := by
  simp [keep]

@[simp] theorem keep_checked {α : Type} (fits : Bool) (sum : α) :
    checked.keep fits sum = if fits then some sum else none := by
  cases fits <;> rfl

theorem eq_of_keep {α : Type} {fits : Bool} {sum total : α}
    (h : arithmetic.keep fits sum = some total) : total = sum := by
  rw [keep] at h
  split at h
  · exact (Option.some.inj h).symm
  · cases h

theorem add16_of_lt {a b : UInt16} (h : a.toNat + b.toNat < 0x10000) :
    arithmetic.add16 a b = some (a + b) := by
  rw [add16, show decide _ = true from decide_eq_true h, keep_true]

theorem checked_add16_eq_some_iff {a b sum : UInt16} :
    checked.add16 a b = some sum ↔ a.toNat + b.toNat < 0x10000 ∧ sum = a + b := by
  simp [add16, UInt16.size, eq_comm]

/-- Adding the words one by one stops exactly when they are too many together. -/
theorem foldlM_add32 (total : UInt32) (words : List UInt32) :
    words.foldlM checked.add32 total =
      if total.toNat + (words.map UInt32.toNat).sum < 0x100000000 then
        some (UInt32.ofNat (total.toNat + (words.map UInt32.toNat).sum))
      else none := by
  induction words generalizing total with
  | nil =>
    have hTotal := total.toNat_lt
    rw [List.foldlM_nil, if_pos (by simpa using hTotal)]
    simp
  | cons word words ih =>
    rw [List.foldlM_cons, List.map_cons, List.sum_cons, ← Nat.add_assoc, add32, keep_checked]
    by_cases hFits : total.toNat + word.toNat < UInt32.size
    · have hSum : (total + word).toNat = total.toNat + word.toNat := by
        rw [UInt32.toNat_add]
        exact Nat.mod_eq_of_lt hFits
      rw [decide_eq_true hFits, if_pos rfl]
      exact (ih (total + word)).trans (by rw [hSum])
    · rw [decide_eq_false hFits, if_neg Bool.false_ne_true, if_neg (by
        change ¬total.toNat + word.toNat < 0x100000000 at hFits
        omega)]
      rfl

theorem checked_sum32 (words : List UInt32) :
    checked.sum32 words =
      if (words.map UInt32.toNat).sum < 0x100000000 then
        some (UInt32.ofNat (words.map UInt32.toNat).sum)
      else none := by
  have hFold := foldlM_add32 0 words
  rw [UInt32.toNat_zero, Nat.zero_add] at hFold
  exact hFold

end DexForge.Arithmetic
