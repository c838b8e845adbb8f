import DexForge.Proofs.Control.Pairing
import Mathlib.Data.List.Perm.Basic
import Mathlib.Data.List.Sort

/-! # Sorting by a comparison -/
set_option autoImplicit false

namespace DexForge

variable {α β : Type} {cmp : α → α → Ordering}

/-- `sorted` has the members of `items`, each as often, in ascending order. -/
structure Sorts (cmp : α → α → Ordering) (items sorted : List α) : Prop where
  perm : sorted.Perm items
  ascending : sorted.Pairwise fun a b => (cmp a b).isLE

theorem isLE_total [Std.OrientedCmp cmp] (a b : α) :
    ((cmp a b).isLE || (cmp b a).isLE) = true := by
  have hSwap : cmp b a = (cmp a b).swap := Std.OrientedCmp.eq_swap
  rw [hSwap]
  cases cmp a b <;> rfl

theorem sorts_mergeSort [Std.TransCmp cmp] (items : List α) :
    Sorts cmp items (items.mergeSort fun a b => (cmp a b).isLE) where
  perm := List.mergeSort_perm items _
  ascending := List.pairwise_mergeSort (fun _ _ _ => Std.TransCmp.isLE_trans) isLE_total items

theorem exists_of_sorts_singleton {R : β → α → Prop} {b : β} {declared stored : List α}
    (h : List.Forall₂ R [b] declared) (hSorts : Sorts cmp declared stored) :
    ∃ a, stored = [a] ∧ R b a := by
  obtain ⟨a, rest, ha, hRest, rfl⟩ := List.forall₂_cons_left_iff.mp h
  cases hRest
  exact ⟨a, List.perm_singleton.mp hSorts.perm, ha⟩

/-- Where entries that compare equal are one entry, an ascending order is strict. -/
theorem pairwise_lt_of_distinct {items : List α} (h : items.Pairwise fun a b => (cmp a b).isLE)
    (hDistinct : ∀ (i j : Nat) (a b : α), items[i]? = some a → items[j]? = some b →
      cmp a b = .eq → i = j) :
    items.Pairwise fun a b => cmp a b = .lt := by
  rw [List.pairwise_iff_getElem] at h ⊢
  intro i j hi hj hLess
  have hLe := h i j hi hj hLess
  cases hCmp : cmp items[i] items[j] with
  | lt => rfl
  | eq =>
    have hSame := hDistinct i j _ _ (List.getElem?_eq_getElem hi) (List.getElem?_eq_getElem hj) hCmp
    exact absurd hSame (Nat.ne_of_lt hLess)
  | gt => simp [hCmp] at hLe

theorem eq_of_pairwise_lt [Std.OrientedCmp cmp] {items items' : List α}
    (h : items.Pairwise fun a b => cmp a b = .lt) (h' : items'.Pairwise fun a b => cmp a b = .lt)
    (hMem : ∀ a, a ∈ items ↔ a ∈ items') : items = items' := by
  have hAntisymm : Std.Antisymm fun a b : α => cmp a b = .lt := by
    refine ⟨fun a b hab hba => ?_⟩
    have hSwap : cmp a b = (cmp b a).swap := Std.OrientedCmp.eq_swap
    rw [hab, hba] at hSwap
    cases hSwap
  have hIrrefl : Std.Irrefl fun a b : α => cmp a b = .lt := by
    refine ⟨fun a ha => ?_⟩
    have hSelf : cmp a a = .eq := Std.ReflCmp.compare_self
    rw [ha] at hSelf
    cases hSelf
  exact h.eq_of_mem_iff h' hMem

theorem compare_of_pairwise_lt [Std.OrientedCmp cmp] {items : List α}
    (h : items.Pairwise fun a b => cmp a b = .lt) {i j : Nat} {a b : α} (ha : items[i]? = some a)
    (hb : items[j]? = some b) : compare i j = cmp a b := by
  obtain ⟨hi, rfl⟩ := List.getElem?_eq_some_iff.mp ha
  obtain ⟨hj, rfl⟩ := List.getElem?_eq_some_iff.mp hb
  rw [List.pairwise_iff_getElem] at h
  obtain hij | rfl | hij := Nat.lt_trichotomy i j
  · rw [h i j hi hj hij, Nat.compare_eq_lt]
    exact hij
  · rw [Nat.compare_eq_eq.mpr rfl]
    exact Std.ReflCmp.compare_self.symm
  · rw [Std.OrientedCmp.gt_iff_lt.mpr (h j i hj hi hij), Nat.compare_eq_gt]
    exact hij

theorem compareLex_congr {cmp' : β → β → Ordering} {R : α → β → Prop} {as as' : List α}
    {bs bs' : List β} (h : List.Forall₂ R as bs) (h' : List.Forall₂ R as' bs')
    (hCmp : ∀ a a' b b', R a b → R a' b' → cmp a a' = cmp' b b') :
    List.compareLex cmp as as' = List.compareLex cmp' bs bs' := by
  induction h generalizing as' bs' with
  | nil => cases h' <;> rfl
  | cons hHead _ ih =>
    cases h' with
    | nil => rfl
    | cons hHead' hTail' =>
      rw [List.compareLex_cons_cons, List.compareLex_cons_cons, hCmp _ _ _ _ hHead hHead', ih hTail']

/-- Where members that correspond compare alike, sorting keeps the correspondence. -/
theorem Sorts.forall₂ {cmp' : β → β → Ordering} [Std.OrientedCmp cmp'] {R : α → β → Prop}
    {as as' : List α} {bs bs' : List β} (h : Sorts cmp as as') (h' : Sorts cmp' bs bs')
    (hR : List.Forall₂ R as bs) (hCmp : ∀ a a' b b', R a b → R a' b' → cmp a a' = cmp' b b')
    (hSame : ∀ b ∈ bs, ∀ b' ∈ bs, cmp' b b' = .eq → b = b') : List.Forall₂ R as' bs' := by
  -- the rearrangement that sorts `as` also sorts `bs`, and only one does
  obtain ⟨sorted, hSorted, hPerm⟩ := List.perm_comp_forall₂ h.perm hR
  have hAscending : sorted.Pairwise fun a b => (cmp' a b).isLE := by
    refine Pairing.pairwise hSorted h.ascending ?_
    intro a _ a' _ b b' hb hb' hLe
    rwa [hCmp a a' b b' hb hb'] at hLe
  have hEq : sorted = bs' := by
    refine (hPerm.trans h'.perm.symm).eq_of_pairwise ?_ hAscending h'.ascending
    intro b b' hb hb' hLe hGe
    exact hSame b (hPerm.mem_iff.mp hb) b' (h'.perm.mem_iff.mp hb')
      (Std.OrientedCmp.isLE_antisymm hLe hGe)
  rwa [← hEq]

def StrictlyAscending (cmp : α → α → Ordering) (entries : Array α) : Prop :=
  ∀ (i j : Nat) (a b : α), i < j → entries[i]? = some a → entries[j]? = some b → cmp a b = .lt

theorem strictlyAscending_iff {entries : Array α} :
    StrictlyAscending cmp entries ↔ entries.toList.Pairwise fun a b => cmp a b = .lt := by
  rw [List.pairwise_iff_getElem]
  constructor
  · intro h i j hi hj hLess
    exact h i j _ _ hLess (by simp at hi; simp [hi]) (by simp at hj; simp [hj])
  · intro h i j a b hLess ha hb
    rw [← Array.getElem?_toList, List.getElem?_eq_some_iff] at ha hb
    obtain ⟨hi, rfl⟩ := ha
    obtain ⟨hj, rfl⟩ := hb
    exact h i j hi hj hLess

theorem StrictlyAscending.compare_eq [Std.OrientedCmp cmp] {entries : Array α}
    (h : StrictlyAscending cmp entries) {i j : Nat} {a b : α} (ha : entries[i]? = some a)
    (hb : entries[j]? = some b) : compare i j = cmp a b := by
  rw [← Array.getElem?_toList] at ha hb
  exact compare_of_pairwise_lt (strictlyAscending_iff.mp h) ha hb

end DexForge
