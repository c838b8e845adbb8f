import DexForge.Proofs.Pool.Contents
import Mathlib.Data.List.FinRange
import Mathlib.Data.List.Dedup
import Mathlib.Data.List.Perm.Subperm

/-! # The size of a pool is the number of different things in it -/
set_option autoImplicit false

namespace DexForge

instance : (t : TableName) → DecidableEq (Contents t)
  | .string => inferInstanceAs (DecidableEq String)
  | .type => inferInstanceAs (DecidableEq String)
  | .proto => inferInstanceAs (DecidableEq ProtoTexts)
  | .field => inferInstanceAs (DecidableEq FieldTexts)
  | .method => inferInstanceAs (DecidableEq MethodTexts)

namespace Pools

def tally (items : List Item) (t : TableName) : Nat :=
  (items.filter fun item => item.1 = t).dedup.length

theorem tally_le (items : List Item) (t : TableName) : tally items t ≤ items.length :=
  Nat.le_trans (List.dedup_sublist _).length_le (List.length_filter_le _ _)

theorem le_tally {items entries : List Item} {t : TableName} (hNodup : entries.Nodup)
    (h : ∀ item ∈ entries, item.1 = t ∧ item ∈ items) : entries.length ≤ tally items t := by
  refine (hNodup.subperm fun item hItem => ?_).length_le
  obtain ⟨hTable, hMem⟩ := h item hItem
  rw [List.mem_dedup, List.mem_filter, decide_eq_true_eq]
  exact ⟨hMem, hTable⟩

/-- Slots and what they denote correspond one to one. -/
theorem WellFormed.size_eq_tally {p : Pools} (hp : p.WellFormed) {items : List Item}
    (h : ∀ item, p.Holds item ↔ item ∈ items) (t : TableName) : p.size t = tally items t := by
  choose x hx using fun i : Fin (p.size t) => hp.resolved (⟨i⟩ : Slot t) i.isLt
  have hNodup : ((List.finRange (p.size t)).map fun i => (⟨t, x i⟩ : Item)).Nodup := by
    refine (List.nodup_finRange _).map fun i j hSame => Fin.ext ?_
    have hContents : x i = x j := eq_of_heq (Sigma.mk.inj hSame).2
    have hSlot := contents?_injective (hx i) (hContents ▸ hx j)
    exact congrArg Slot.position hSlot
  have hPerm : ((List.finRange (p.size t)).map fun i => (⟨t, x i⟩ : Item)).Perm
      (items.filter fun item => item.1 = t).dedup := by
    rw [List.perm_ext_iff_of_nodup hNodup (List.nodup_dedup _)]
    intro item
    simp only [List.mem_map, List.mem_finRange, true_and, List.mem_dedup, List.mem_filter, ← h,
      decide_eq_true_eq]
    constructor
    · rintro ⟨i, rfl⟩
      exact ⟨⟨_, hx i⟩, rfl⟩
    · rintro ⟨⟨slot, hSlot⟩, rfl⟩
      refine ⟨⟨slot.position, lt_size_of_contents? hSlot⟩, ?_⟩
      have hSame : x ⟨slot.position, lt_size_of_contents? hSlot⟩ = item.2 :=
        Option.some.inj ((hx _).symm.trans hSlot)
      rw [hSame]
  rw [tally, ← hPerm.length_eq, List.length_map, List.length_finRange]

end Pools

end DexForge
