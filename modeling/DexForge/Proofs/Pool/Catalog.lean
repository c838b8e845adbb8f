import DexForge.Pool.Catalog

/-! # Catalogs grow by their contents -/
set_option autoImplicit false

namespace DexForge.Catalog

variable {α : Type} [BEq α] [Hashable α] [LawfulBEq α] {c c' : Catalog α} {a b : α} {i j : Nat}

theorem get?_injective (hi : c.get? i = some a) (hj : c.get? j = some a) : i = j := by
  rw [← find?_eq_some_iff] at hi hj
  exact Option.some.inj (hi.symm.trans hj)

theorem mem_iff_get? : a ∈ c.entries ↔ ∃ i, c.get? i = some a := Array.mem_iff_getElem?

theorem isSome_find?_iff : (c.find? a).isSome ↔ a ∈ c.entries := by
  rw [Option.isSome_iff_exists, mem_iff_get?]
  exact exists_congr fun i => c.find?_eq_some_iff a i

theorem lt_size_of_get? (h : c.get? i = some a) : i < c.size :=
  (Array.getElem?_eq_some_iff.mp h).1

theorem nodup (c : Catalog α) : c.entries.toList.Nodup := by
  rw [List.Nodup, List.pairwise_iff_getElem]
  intro i j hi hj hLess hSame
  have hFirst : c.get? i = some c.entries.toList[i] := by simp at hi; simp [get?, hi]
  have hSecond : c.get? j = some c.entries.toList[i] := by
    rw [hSame]
    simp at hj
    simp [get?, hj]
  exact Nat.ne_of_lt hLess (get?_injective hFirst hSecond)

theorem entries_insert (c : Catalog α) (a : α) :
    a ∈ c.entries ∧ (c.insert a).2.entries = c.entries ∨
      a ∉ c.entries ∧ (c.insert a).2.entries = c.entries.push a := by
  cases hFind : c.find? a with
  | some i =>
    refine Or.inl ⟨isSome_find?_iff.mp (by rw [hFind]; rfl), ?_⟩
    rw [insert_of_find? hFind]
  | none =>
    refine Or.inr ⟨?_, (insert_of_find?_none hFind).2⟩
    rw [← isSome_find?_iff, hFind]
    simp

theorem mem_insert_iff : b ∈ (c.insert a).2.entries ↔ b ∈ c.entries ∨ b = a := by
  obtain ⟨hMem, hEntries⟩ | ⟨-, hEntries⟩ := c.entries_insert a
  · rw [hEntries]
    refine ⟨Or.inl, ?_⟩
    rintro (hb | rfl)
    · exact hb
    · exact hMem
  · rw [hEntries, Array.mem_push]

theorem lt_size_of_insert (h : i < (c.insert a).2.size) : i < c.size ∨ i = (c.insert a).1 := by
  cases hFind : c.find? a with
  | some j =>
    rw [insert_of_find? hFind] at h
    exact Or.inl h
  | none =>
    obtain ⟨hPosition, hEntries⟩ := insert_of_find?_none hFind
    rw [size, hEntries, Array.size_push] at h
    rw [hPosition, size]
    omega

def Extends (c c' : Catalog α) : Prop := ∀ i a, c.get? i = some a → c'.get? i = some a

theorem Extends.refl (c : Catalog α) : c.Extends c := fun _ _ h => h

theorem Extends.trans {c'' : Catalog α} (h : c.Extends c') (h' : c'.Extends c'') :
    c.Extends c'' :=
  fun i a ha => h' i a (h i a ha)

theorem extends_insert (c : Catalog α) (a : α) : c.Extends (c.insert a).2 :=
  fun _ _ h => get?_insert_of_get? h a

theorem firstRepeated?_eq_none_iff {items : List α} :
    c.firstRepeated? items = none ↔ items.Nodup ∧ ∀ item ∈ items, item ∉ c.entries := by
  induction items generalizing c with
  | nil => simp [firstRepeated?]
  | cons item rest ih =>
    have hFind : (c.find? item).isSome ↔ item ∈ c.entries := isSome_find?_iff
    rw [firstRepeated?, List.nodup_cons, List.forall_mem_cons]
    cases hItem : c.find? item with
    | some i =>
      rw [hItem] at hFind
      simp [hFind.mp rfl]
    | none =>
      rw [hItem] at hFind
      have hNew : item ∉ c.entries := fun hMem => by cases hFind.mpr hMem
      simp only [ih, mem_insert_iff, not_or]
      refine ⟨?_, ?_⟩
      · rintro ⟨hNodup, hRest⟩
        exact ⟨⟨fun hMem => (hRest item hMem).2 rfl, hNodup⟩, hNew, fun a ha => (hRest a ha).1⟩
      · rintro ⟨⟨hHead, hNodup⟩, -, hRest⟩
        exact ⟨hNodup, fun a ha => ⟨hRest a ha, fun hSame => hHead (hSame ▸ ha)⟩⟩

end DexForge.Catalog

namespace DexForge

theorem firstRepeated?_eq_none_iff {α : Type} [BEq α] [Hashable α] [LawfulBEq α] {items : List α} :
    firstRepeated? items = none ↔ items.Nodup := by
  rw [firstRepeated?, Catalog.firstRepeated?_eq_none_iff, and_iff_left_iff_imp]
  intro _ item _ hMem
  exact Array.not_mem_empty item hMem

end DexForge
