import Std.Data.HashMap

/-! # Catalogs

A catalog is a list of distinct entries in the order of their insertion, with a look-up from an
entry to its position.
-/
set_option autoImplicit false

namespace DexForge

structure Catalog (α : Type) [BEq α] [Hashable α] [LawfulBEq α] where
  entries : Array α
  positions : Std.HashMap α Nat
  lookup_iff : ∀ (a : α) (i : Nat), positions[a]? = some i ↔ entries[i]? = some a

namespace Catalog

variable {α : Type} [BEq α] [Hashable α] [LawfulBEq α]

def empty : Catalog α where
  entries := #[]
  positions := ∅
  lookup_iff := by simp

def size (c : Catalog α) : Nat := c.entries.size

def get? (c : Catalog α) (i : Nat) : Option α := c.entries[i]?

def find? (c : Catalog α) (a : α) : Option Nat := c.positions[a]?

theorem find?_eq_some_iff (c : Catalog α) (a : α) (i : Nat) :
    c.find? a = some i ↔ c.get? i = some a :=
  c.lookup_iff a i

private theorem push_lookup_iff {entries : Array α} {positions : Std.HashMap α Nat}
    (hLookup : ∀ (a : α) (i : Nat), positions[a]? = some i ↔ entries[i]? = some a)
    {a : α} (hNew : positions[a]? = none) (b : α) (i : Nat) :
    (positions.insert a entries.size)[b]? = some i ↔ (entries.push a)[i]? = some b := by
  rw [Std.HashMap.getElem?_insert, Array.getElem?_push]
  by_cases hSame : a = b
  · subst hSame
    simp only [BEq.rfl, ↓reduceIte, Option.some.injEq]
    constructor
    · rintro rfl
      simp
    · intro h
      split at h
      · next hLast => exact hLast.symm
      · rw [← hLookup, hNew] at h
        cases h
  · have hBeq : (a == b) = false := by simpa using hSame
    simp only [hBeq, Bool.false_eq_true, ↓reduceIte]
    rw [hLookup]
    by_cases hLast : i = entries.size
    · subst hLast
      simp [hSame]
    · simp [hLast]

/-- Position of an entry, which is added at the end when it is new. -/
def insert (c : Catalog α) (a : α) : Nat × Catalog α :=
  match c with
  | ⟨entries, positions, lookup_iff⟩ =>
    match h : positions[a]? with
    | some i => (i, ⟨entries, positions, lookup_iff⟩)
    | none =>
      (entries.size,
       ⟨entries.push a, positions.insert a entries.size, push_lookup_iff lookup_iff h⟩)

theorem insert_of_find? {c : Catalog α} {a : α} {i : Nat} (h : c.find? a = some i) :
    c.insert a = (i, c) := by
  unfold insert
  split
  next entries positions hLookup =>
    simp only [find?] at h
    split
    next j hFound => rw [h] at hFound; cases hFound; rfl
    next hFound => rw [h] at hFound; cases hFound

theorem insert_of_find?_none {c : Catalog α} {a : α} (h : c.find? a = none) :
    (c.insert a).1 = c.size ∧ (c.insert a).2.entries = c.entries.push a := by
  unfold insert
  split
  next entries positions hLookup =>
    simp only [find?] at h
    split
    next j hFound => rw [h] at hFound; cases hFound
    next hFound => exact ⟨rfl, rfl⟩

theorem get?_insert (c : Catalog α) (a : α) : (c.insert a).2.get? (c.insert a).1 = some a := by
  cases h : c.find? a with
  | some i =>
    rw [insert_of_find? h]
    exact (c.find?_eq_some_iff a i).mp h
  | none =>
    obtain ⟨hPosition, hEntries⟩ := insert_of_find?_none h
    simp [get?, hPosition, hEntries, size]

theorem get?_insert_of_get? {c : Catalog α} {i : Nat} {b : α} (h : c.get? i = some b) (a : α) :
    (c.insert a).2.get? i = some b := by
  cases hFind : c.find? a with
  | some j => rw [insert_of_find? hFind]; exact h
  | none =>
    obtain ⟨-, hEntries⟩ := insert_of_find?_none hFind
    simp only [get?, hEntries, Array.getElem?_push] at h ⊢
    split
    · next hLast => subst hLast; simp at h
    · exact h

def firstRepeated? (c : Catalog α) : List α → Option α
  | [] => none
  | a :: rest =>
    match c.find? a with
    | some _ => some a
    | none => (c.insert a).2.firstRepeated? rest

instance : Inhabited (Catalog α) := ⟨empty⟩

end Catalog

def firstRepeated? {α : Type} [BEq α] [Hashable α] [LawfulBEq α] (items : List α) : Option α :=
  (Catalog.empty : Catalog α).firstRepeated? items

end DexForge
