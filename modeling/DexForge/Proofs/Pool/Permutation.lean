import DexForge.Proofs.Pool.History

/-! # The order of calls does not matter

Calls in another order leave other slots behind, but the same contents. Whether a call is answered
depends on its request alone, and the finished tables and the index of every answer are the same.
-/
set_option autoImplicit false

namespace DexForge

namespace Ranking

variable {r r' : Ranking}

theorem SamePlace.exists_index {t : TableName} {slot slot' : Slot t}
    (h : r.SamePlace r' t slot slot') :
    ∃ i, r.narrow.index slot = .ok i ∧ r'.narrow.index slot' = .ok i := by
  obtain ⟨j, hj, hj'⟩ := h
  exact ⟨_, index_of_place hj, index_of_place hj'⟩

end Ranking

namespace Pools

variable {calls calls' : List Call}

/-- A call is answered exactly when no text that it brings along is too long, whatever was called
before it. -/
theorem exists_returned_iff {t : TableName} {r : Request t} :
    (∃ slot, Returned calls r slot) ↔ ⟨t, r⟩ ∈ calls ∧ fault? r.parts = none := by
  constructor
  · rintro ⟨slot, earlier, later, rfl, hOk⟩
    have hCall := r.interns_intern (wellFormed_after earlier)
    exact ⟨List.mem_append_right _ List.mem_cons_self, hCall.fault?_eq_none hOk⟩
  · rintro ⟨hMem, hParts⟩
    obtain ⟨earlier, later, hSplit⟩ := List.append_of_mem hMem
    obtain ⟨slot, hOk, -⟩ := (r.interns_intern (wellFormed_after earlier)).success hParts
    exact ⟨slot, earlier, later, hSplit, hOk⟩

theorem holds_after_perm (h : calls.Perm calls') (item : Item) :
    (after calls).Holds item ↔ (after calls').Holds item := by
  rw [holds_after, holds_after]
  exact (h.flatMap_right _).mem_iff

/-- Calls in another order finish with the same fault, or with the same tables; the same requests
are answered, and with the same index in the end. -/
theorem finish_after_perm (h : calls.Perm calls') :
    (∀ {t : TableName} (r : Request t),
      (∃ slot, Returned calls r slot) ↔ ∃ slot, Returned calls' r slot) ∧
    ((∃ e, (after calls).finish = .error e ∧ (after calls').finish = .error e) ∨
      ∃ tables tables', (after calls).finish = .ok tables ∧ (after calls').finish = .ok tables' ∧
        tables.SameEntries tables' ∧
        ∀ {t : TableName} (r : Request t) (slot slot' : Slot t), Returned calls r slot →
          Returned calls' r slot' → ∃ i, tables.index slot = .ok i ∧ tables'.index slot' = .ok i) := by
  constructor
  · intro t r
    rw [exists_returned_iff, exists_returned_iff, h.mem_iff]
  · have hFinish := finish_congr (wellFormed_after calls) (wellFormed_after calls')
      (holds_after_perm h)
    generalize hLeft : (after calls).finish = left at hFinish
    generalize hRight : (after calls').finish = right at hFinish
    cases hFinish with
    | error e => exact Or.inl ⟨e, rfl, rfl⟩
    | ok hTables =>
      obtain ⟨r, r', rfl, rfl, hOrders, hOrders', hSame⟩ := hTables
      refine Or.inr ⟨_, _, rfl, rfl, hSame.narrow, ?_⟩
      intro t request slot slot' hSlot hSlot'
      -- both slots denote what the request asked for, each in its own pools
      have hPlace := hSame.samePlace hOrders hOrders' hSlot.contents? hSlot'.contents?
      exact hPlace.exists_index

/-- Two fields, with a text between them that is too long to be collected. -/
def crossedCalls : List Call :=
  [⟨.field, .field "LB;" "y" "I"⟩, ⟨.string, .string (String.ofList (List.replicate 65536 'x'))⟩,
   ⟨.field, .field "LA;" "x" "I"⟩]

theorem finish_after_perm_crossedCalls : crossedCalls.Perm crossedCalls.reverse ∧
    ∃ (tables tables' : Tables) (slot slot' : Slot .field) (i : UInt32),
      (after crossedCalls).finish = .ok tables ∧
      (after crossedCalls.reverse).finish = .ok tables' ∧ tables.SameEntries tables' ∧
      Returned crossedCalls (.field "LA;" "x" "I") slot ∧
      Returned crossedCalls.reverse (.field "LA;" "x" "I") slot' ∧
      tables.index slot = .ok i ∧ tables'.index slot' = .ok i := by
  have hPerm : crossedCalls.Perm crossedCalls.reverse := (List.reverse_perm _).symm
  obtain ⟨hAnswers, hFinish⟩ := finish_after_perm hPerm
  have hMem : ⟨.field, .field "LA;" "x" "I"⟩ ∈ crossedCalls :=
    List.mem_cons_of_mem _ (List.mem_cons_of_mem _ List.mem_cons_self)
  obtain ⟨slot, hSlot⟩ := exists_returned_iff.mpr ⟨hMem, by decide⟩
  obtain ⟨slot', hSlot'⟩ := (hAnswers _).mp ⟨slot, hSlot⟩
  have hSmall : ∀ t, (after crossedCalls).size t ≤ 65536 := fun t =>
    Nat.le_trans (size_after_le crossedCalls t) (by decide)
  obtain ⟨tables, hOk⟩ := (wellFormed_after crossedCalls).exists_finish_iff.mpr
    ⟨hSmall _, hSmall _, hSmall _, hSmall _⟩
  obtain ⟨e, hError, -⟩ | ⟨left, right, hLeft, hRight, hSame, hIndex⟩ := hFinish
  · rw [hOk] at hError
    cases hError
  · obtain ⟨i, hi, hi'⟩ := hIndex _ slot slot' hSlot hSlot'
    exact ⟨hPerm, left, right, slot, slot', i, hLeft, hRight, hSame, hSlot, hSlot', hi, hi'⟩

end Pools

end DexForge
