/-! # Ranked entries

Entries in ascending order, with the place that each of them took from its position before.
-/
set_option autoImplicit false

namespace DexForge

structure Ranked (α : Type) where
  entries : Array α
  rank : Array Nat

namespace Ranked

variable {α β : Type}

/-- `places[positions[i]] = i` for every `i`. -/
def invert (positions : List Nat) : Array Nat :=
  positions.zipIdx.foldl (fun places pair => places.setIfInBounds pair.1 pair.2)
    (Array.replicate positions.length 0)

/-- Entries that compare equal keep their order. -/
def ofList (cmp : α → α → Ordering) (items : List α) : Ranked α :=
  let sorted := items.zipIdx.mergeSort fun a b => (cmp a.1 b.1).isLE
  ⟨(sorted.map Prod.fst).toArray, invert (sorted.map Prod.snd)⟩

def map (f : α → β) (r : Ranked α) : Ranked β := ⟨r.entries.map f, r.rank⟩

def size (r : Ranked α) : Nat := r.entries.size

end Ranked

end DexForge
