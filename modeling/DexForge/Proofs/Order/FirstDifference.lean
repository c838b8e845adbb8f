import DexForge.Proofs.Order.Sorting
import Mathlib.Logic.Function.Basic

/-! # Total orders and first differences

The laws of a total order for a comparison. Lists compare as the first entries in which they differ,
and the way in which the entries are numbered matters there only.
-/
set_option autoImplicit false

namespace DexForge

/-- The laws of a total order, for a comparison that takes no two values for one. -/
structure IsTotalOrder {α : Type} (cmp : α → α → Ordering) : Prop where
  refl : ∀ a, cmp a a = .eq
  eq_of_cmp : ∀ a b, cmp a b = .eq → a = b
  swap : ∀ a b, cmp b a = (cmp a b).swap
  antisymm : ∀ a b, (cmp a b).isLE → (cmp b a).isLE → a = b
  trans : ∀ a b c, (cmp a b).isLE → (cmp b c).isLE → (cmp a c).isLE
  total : ∀ a b, (cmp a b).isLE ∨ (cmp b a).isLE

theorem isTotalOrder {α : Type} (cmp : α → α → Ordering) [Std.TransCmp cmp] [Std.LawfulEqCmp cmp] :
    IsTotalOrder cmp where
  refl _ := Std.ReflCmp.compare_self
  eq_of_cmp _ _ := Std.LawfulEqCmp.eq_of_compare
  swap _ _ := Std.OrientedCmp.eq_swap
  antisymm _ _ hLe hGe := Std.LawfulEqCmp.eq_of_compare (Std.OrientedCmp.isLE_antisymm hLe hGe)
  trans _ _ _ := Std.TransCmp.isLE_trans
  total a b := Bool.or_eq_true_iff.mp (isLE_total a b)

variable {α β : Type}

/-- The first entries in which two lists differ. There are none where one list starts with the
other. -/
def firstDifference? [DecidableEq α] : List α → List α → Option (α × α)
  | a :: as, b :: bs => if a = b then firstDifference? as bs else some (a, b)
  | _, _ => none

theorem firstDifference?_eq_some_iff [DecidableEq α] {as bs : List α} {a b : α} :
    firstDifference? as bs = some (a, b) ↔
      a ≠ b ∧ ∃ front as' bs', as = front ++ a :: as' ∧ bs = front ++ b :: bs' := by
  constructor
  · intro h
    fun_induction firstDifference? as bs with
    | case1 as c bs ih =>
      obtain ⟨hNe, front, as', bs', rfl, rfl⟩ := ih h
      exact ⟨hNe, c :: front, as', bs', rfl, rfl⟩
    | case2 c as d bs hNe =>
      cases h
      exact ⟨hNe, [], as, bs, rfl, rfl⟩
    | case3 => cases h
  · rintro ⟨hNe, front, as', bs', rfl, rfl⟩
    induction front with
    | nil => simp [firstDifference?, hNe]
    | cons c front ih => simpa [firstDifference?] using ih

theorem firstDifference?_swap [DecidableEq α] {as bs : List α} {a b : α}
    (h : firstDifference? as bs = some (a, b)) : firstDifference? bs as = some (b, a) := by
  rw [firstDifference?_eq_some_iff] at h ⊢
  obtain ⟨hNe, front, as', bs', hAs, hBs⟩ := h
  exact ⟨hNe.symm, front, bs', as', hBs, hAs⟩

theorem compare_append [Ord β] [Std.ReflOrd β] (front xs ys : List β) :
    compare (front ++ xs) (front ++ ys) = compare xs ys := by
  induction front with
  | nil => rfl
  | cons x front ih =>
    rw [List.cons_append, List.cons_append, List.compare_cons_cons, Std.ReflOrd.compare_self, ih]
    rfl

theorem compare_cons_of_ne [Ord β] [Std.LawfulEqOrd β] {x y : β} (h : x ≠ y) (xs ys : List β) :
    compare (x :: xs) (y :: ys) = compare x y := by
  have hNe : compare x y ≠ .eq := fun hEq => h (Std.LawfulEqOrd.eq_of_compare hEq)
  rw [List.compare_cons_cons]
  cases hCmp : compare x y with
  | eq => exact absurd hCmp hNe
  | lt | gt => rfl

theorem compare_map_of_firstDifference? [DecidableEq α] [Ord β] [Std.LawfulEqOrd β] {f : α → β}
    (hf : Function.Injective f) {as bs : List α} {a b : α}
    (h : firstDifference? as bs = some (a, b)) :
    compare (as.map f) (bs.map f) = compare (f a) (f b) := by
  obtain ⟨hNe, front, as', bs', rfl, rfl⟩ := firstDifference?_eq_some_iff.mp h
  rw [List.map_append, List.map_append, List.map_cons, List.map_cons, compare_append,
    compare_cons_of_ne (hf.ne hNe)]

theorem compare_map_of_firstDifference?_none [DecidableEq α] [Ord β] [Std.ReflOrd β]
    (f g : α → β) {as bs : List α} (h : firstDifference? as bs = none) :
    compare (as.map f) (bs.map f) = compare (as.map g) (bs.map g) := by
  fun_induction firstDifference? as bs with
  | case1 as c bs ih =>
    simp only [List.map_cons, List.compare_cons_cons, Std.ReflOrd.compare_self, ih h]
  | case2 => cases h
  | case3 as bs hShort =>
    -- one of the two is at its end
    cases as with
    | nil => cases bs <;> rfl
    | cons c as =>
      cases bs with
      | nil => rfl
      | cons d bs => exact (hShort c as d bs rfl rfl).elim

/-- Two numberings order lists alike when they do so for the first entries that differ. -/
theorem compare_map_congr [DecidableEq α] [Ord β] [Std.LawfulEqOrd β] {f g : α → β}
    (hf : Function.Injective f) (hg : Function.Injective g) {as bs : List α}
    (h : ∀ a b, firstDifference? as bs = some (a, b) → compare (f a) (f b) = compare (g a) (g b)) :
    compare (as.map f) (bs.map f) = compare (as.map g) (bs.map g) := by
  cases hDiffer : firstDifference? as bs with
  | none => exact compare_map_of_firstDifference?_none f g hDiffer
  | some pair =>
    rw [compare_map_of_firstDifference? hf hDiffer, compare_map_of_firstDifference? hg hDiffer,
      h _ _ hDiffer]

end DexForge
