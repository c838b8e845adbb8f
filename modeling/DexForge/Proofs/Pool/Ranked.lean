import DexForge.Pool.Ranked
import DexForge.Proofs.Order.Sorting

/-! # Places of ranked entries

Ranking a list sorts it, and the place of each position is where its entry went.
-/
set_option autoImplicit false

namespace DexForge.Ranked

variable {α β : Type}

theorem size_foldl_set (pairs : List (Nat × Nat)) (places : Array Nat) :
    (pairs.foldl (fun places pair => places.setIfInBounds pair.1 pair.2) places).size =
      places.size := by
  induction pairs generalizing places with
  | nil => rfl
  | cons pair pairs ih => rw [List.foldl_cons, ih, Array.size_setIfInBounds]

theorem foldl_set_of_not_mem {pairs : List (Nat × Nat)} {p : Nat}
    (h : p ∉ pairs.map Prod.fst) (places : Array Nat) :
    (pairs.foldl (fun places pair => places.setIfInBounds pair.1 pair.2) places)[p]? =
      places[p]? := by
  induction pairs generalizing places with
  | nil => rfl
  | cons pair pairs ih =>
    rw [List.map_cons, List.mem_cons, not_or] at h
    rw [List.foldl_cons, ih h.2, Array.getElem?_setIfInBounds_ne (Ne.symm h.1)]

theorem foldl_set_of_mem {pairs : List (Nat × Nat)} (hNodup : (pairs.map Prod.fst).Nodup)
    {p k : Nat} (h : (p, k) ∈ pairs) {places : Array Nat} (hp : p < places.size) :
    (pairs.foldl (fun places pair => places.setIfInBounds pair.1 pair.2) places)[p]? = some k := by
  induction pairs generalizing places with
  | nil => cases h
  | cons pair pairs ih =>
    rw [List.map_cons, List.nodup_cons] at hNodup
    rw [List.foldl_cons]
    obtain rfl | h := List.mem_cons.mp h
    · rw [foldl_set_of_not_mem hNodup.1, Array.getElem?_setIfInBounds_self_of_lt hp]
    · exact ih hNodup.2 h (by rwa [Array.size_setIfInBounds])

theorem size_invert (positions : List Nat) : (invert positions).size = positions.length := by
  rw [invert, size_foldl_set, Array.size_replicate]

theorem getElem?_invert_iff {positions : List Nat}
    (h : positions.Perm (List.range positions.length)) {i j : Nat} :
    (invert positions)[i]? = some j ↔ positions[j]? = some i := by
  have hNodup : positions.Nodup := h.nodup_iff.mpr List.nodup_range
  have hForth : ∀ {i j : Nat}, positions[j]? = some i → (invert positions)[i]? = some j := by
    intro i j hj
    have hi : i < positions.length := List.mem_range.mp (h.mem_iff.mp (List.mem_of_getElem? hj))
    refine foldl_set_of_mem ?_ ?_ (by rwa [Array.size_replicate])
    · rwa [List.zipIdx_map_fst]
    · rwa [List.mk_mem_zipIdx_iff_getElem?]
  refine ⟨?_, hForth⟩
  intro hi
  have hBound : i < positions.length := by
    rw [← size_invert]
    exact (Array.getElem?_eq_some_iff.mp hi).1
  obtain ⟨k, hk⟩ := List.mem_iff_getElem?.mp (h.mem_iff.mpr (List.mem_range.mpr hBound))
  rw [hForth hk, Option.some.injEq] at hi
  rwa [← hi]

/-- `r` has `items` in ascending order and knows where each of them went. -/
structure Ranks (cmp : α → α → Ordering) (items : List α) (r : Ranked α) : Prop where
  sorts : Sorts cmp items r.entries.toList
  size_rank : r.rank.size = items.length
  entry : ∀ {i j : Nat}, r.rank[i]? = some j → r.entries[j]? = items[i]?
  injective : ∀ {i i' j : Nat}, r.rank[i]? = some j → r.rank[i']? = some j → i = i'
  onto : ∀ {j : Nat} {a : α}, r.entries[j]? = some a → ∃ i : Nat, r.rank[i]? = some j

theorem ranks_ofList (cmp : α → α → Ordering) [Std.TransCmp cmp] (items : List α) :
    Ranks cmp items (ofList cmp items) := by
  have hTrans : Std.TransCmp fun a b : α × Nat => cmp a.1 b.1 :=
    { eq_swap := Std.OrientedCmp.eq_swap, isLE_trans := Std.TransCmp.isLE_trans }
  have hSorts : Sorts (fun a b : α × Nat => cmp a.1 b.1) items.zipIdx
      (items.zipIdx.mergeSort fun a b => (cmp a.1 b.1).isLE) := sorts_mergeSort _
  generalize hSorted : (items.zipIdx.mergeSort fun a b => (cmp a.1 b.1).isLE) = sorted at hSorts
  have hOfList : ofList cmp items =
      ⟨(sorted.map Prod.fst).toArray, invert (sorted.map Prod.snd)⟩ := by rw [ofList, hSorted]
  have hItems : (sorted.map Prod.fst).Perm items := by
    have hPerm := hSorts.perm.map Prod.fst
    rwa [List.zipIdx_map_fst] at hPerm
  have hLength : (sorted.map Prod.snd).length = items.length := by
    rw [List.length_map, hSorts.perm.length_eq, List.length_zipIdx]
  have hPositions : (sorted.map Prod.snd).Perm (List.range (sorted.map Prod.snd).length) := by
    have hPerm := hSorts.perm.map Prod.snd
    rwa [List.zipIdx_map_snd, ← List.range_eq_range', ← hLength] at hPerm
  rw [hOfList]
  refine ⟨⟨hItems, ?_⟩, by rw [size_invert, hLength], ?_, ?_, ?_⟩
  · exact List.pairwise_map.mpr hSorts.ascending
  · intro i j hj
    rw [getElem?_invert_iff hPositions, List.getElem?_map, Option.map_eq_some_iff] at hj
    obtain ⟨⟨a, k⟩, hPair, rfl⟩ := hj
    have hMem := hSorts.perm.mem_iff.mp (List.mem_of_getElem? hPair)
    rw [List.mk_mem_zipIdx_iff_getElem?] at hMem
    rw [hMem]
    simp [hPair]
  · intro i i' j hi hi'
    rw [getElem?_invert_iff hPositions] at hi hi'
    exact Option.some.inj (hi.symm.trans hi')
  · intro j a ha
    simp only [List.getElem?_toArray, List.getElem?_map, Option.map_eq_some_iff] at ha
    obtain ⟨pair, hPair, -⟩ := ha
    refine ⟨pair.2, ?_⟩
    rw [getElem?_invert_iff hPositions, List.getElem?_map, hPair]
    rfl

namespace Ranks

variable {cmp : α → α → Ordering} {items : List α} {r : Ranked α}

theorem size_entries (h : Ranks cmp items r) : r.entries.size = items.length := by
  rw [← Array.length_toList, h.sorts.perm.length_eq]

theorem lt_size_of_place (h : Ranks cmp items r) {i j : Nat} (hj : r.rank[i]? = some j) :
    j < r.entries.size := by
  have hBound : i < items.length := by
    rw [← h.size_rank]
    exact (Array.getElem?_eq_some_iff.mp hj).1
  have hEntry := h.entry hj
  rw [List.getElem?_eq_getElem hBound] at hEntry
  exact (Array.getElem?_eq_some_iff.mp hEntry).1

theorem rank_perm (h : Ranks cmp items r) : r.rank.toList.Perm (List.range r.entries.size) := by
  have hNodup : r.rank.toList.Nodup := by
    rw [List.Nodup, List.pairwise_iff_getElem]
    intro i j hi hj hLess hSame
    have hFirst : r.rank[i]? = some r.rank.toList[i] := by simp at hi; simp [hi]
    have hSecond : r.rank[j]? = some r.rank.toList[i] := by rw [hSame]; simp at hj; simp [hj]
    exact Nat.ne_of_lt hLess (h.injective hFirst hSecond)
  have hSubset : r.rank.toList ⊆ List.range r.entries.size := by
    intro j hj
    obtain ⟨i, hi⟩ := List.mem_iff_getElem?.mp hj
    rw [Array.getElem?_toList] at hi
    exact List.mem_range.mpr (h.lt_size_of_place hi)
  refine (List.subperm_of_subset hNodup hSubset).perm_of_length_le ?_
  rw [List.length_range, h.size_entries, ← h.size_rank, Array.length_toList]

theorem map {key : β → α} {cmp' : β → β → Ordering} {values : List β} {back : α → β}
    (h : Ranks cmp (values.map key) r) (hBack : ∀ b, back (key b) = b)
    (hCmp : ∀ a b, cmp' a b = cmp (key a) (key b)) : Ranks cmp' values (r.map back) := by
  have hMap : (values.map key).map back = values := by
    rw [List.map_map]
    exact List.map_id'' hBack values
  have hKey : ∀ a ∈ r.entries.toList, key (back a) = a := by
    intro a ha
    obtain ⟨b, -, rfl⟩ := List.mem_map.mp (h.sorts.perm.mem_iff.mp ha)
    rw [hBack]
  refine ⟨⟨?_, ?_⟩, ?_, ?_, h.injective, ?_⟩
  · rw [Ranked.map, Array.toList_map]
    have hPerm := h.sorts.perm.map back
    rwa [hMap] at hPerm
  · rw [Ranked.map, Array.toList_map, List.pairwise_map]
    refine h.sorts.ascending.imp_of_mem ?_
    intro a b ha hb hLe
    rwa [hCmp, hKey a ha, hKey b hb]
  · rw [Ranked.map, h.size_rank, List.length_map]
  · intro i j hj
    have hEntry := h.entry hj
    rw [Ranked.map, Array.getElem?_map, hEntry, List.getElem?_map, Option.map_map]
    cases values[i]? with
    | none => rfl
    | some b => exact congrArg some (hBack b)
  · intro j b hb
    simp only [Ranked.map, Array.getElem?_map, Option.map_eq_some_iff] at hb
    obtain ⟨a, ha, -⟩ := hb
    exact h.onto ha

end Ranks

end DexForge.Ranked
