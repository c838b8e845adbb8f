import DexForge.Proofs.Layout.StoredClasses
import Mathlib.Order.WellFoundedSet

/-! # The order of a class hierarchy

Classes are arranged by position: of the orders in which every supertype comes before its subtypes,
the arrangement is the lexicographically smallest. There is none exactly when some class stands
above itself.
-/
set_option autoImplicit false

namespace DexForge.ClassOrder

open Relation

/-- A permutation of `positions` in which whatever stands above a position comes before it. -/
structure Linear (above : Nat → Nat → Prop) (positions order : List Nat) : Prop where
  perm : order.Perm positions
  before : ∀ i ∈ positions, ∀ j ∈ positions, above i j → order.idxOf i < order.idxOf j

section Orders

variable {above : Nat → Nat → Prop} {positions others rest : List Nat} {first : Nat}

theorem Linear.free_first (h : Linear above positions (first :: rest)) :
    ∀ i ∈ positions, ¬above i first := by
  intro i hi hAbove
  have hFirst : first ∈ positions := h.perm.mem_iff.mp List.mem_cons_self
  have hBefore := h.before i hi first hFirst hAbove
  rw [List.idxOf_cons_self] at hBefore
  exact Nat.not_lt_zero _ hBefore

theorem linear_cons_iff (hNodup : positions.Nodup) (hPerm : positions.Perm (first :: others)) :
    Linear above positions (first :: rest) ↔
      (∀ i ∈ positions, ¬above i first) ∧ Linear above others rest := by
  have hOthers : ∀ {i}, i ∈ others → i ∈ positions ∧ first ≠ i := by
    intro i hi
    refine ⟨hPerm.mem_iff.mpr (List.mem_cons_of_mem _ hi), ?_⟩
    rintro rfl
    exact (List.nodup_cons.mp (hPerm.nodup_iff.mp hNodup)).1 hi
  constructor
  · intro h
    refine ⟨h.free_first, List.Perm.cons_inv (h.perm.trans hPerm), ?_⟩
    intro i hi j hj hAbove
    have hBefore := h.before i (hOthers hi).1 j (hOthers hj).1 hAbove
    rw [List.idxOf_cons_ne _ (hOthers hi).2, List.idxOf_cons_ne _ (hOthers hj).2] at hBefore
    exact Nat.lt_of_succ_lt_succ hBefore
  · rintro ⟨hFree, h⟩
    refine ⟨(h.perm.cons first).trans hPerm.symm, ?_⟩
    intro i hi j hj hAbove
    obtain rfl | hj := List.mem_cons.mp (hPerm.mem_iff.mp hj)
    · exact absurd hAbove (hFree i hi)
    rw [List.idxOf_cons_ne _ (hOthers hj).2]
    obtain rfl | hi := List.mem_cons.mp (hPerm.mem_iff.mp hi)
    · rw [List.idxOf_cons_self]
      exact Nat.succ_pos _
    · rw [List.idxOf_cons_ne _ (hOthers hi).2]
      exact Nat.succ_lt_succ (h.before i hi j hj hAbove)

theorem not_lex_of_perm {order : List Nat} (hAscending : positions.Pairwise (· < ·))
    (hPerm : order.Perm positions) : ¬List.Lex (· < ·) order positions := by
  induction positions generalizing order with
  | nil => exact List.not_lex_nil
  | cons p positions ih =>
    rw [List.pairwise_cons] at hAscending
    intro hLex
    cases hLex with
    | nil => exact absurd hPerm.length_eq (by simp)
    | cons hRest => exact ih hAscending.2 (List.Perm.cons_inv hPerm) hRest
    | rel hLess =>
      obtain rfl | hMem := List.mem_cons.mp (hPerm.mem_iff.mp List.mem_cons_self)
      · exact Nat.lt_irrefl _ hLess
      · exact Nat.lt_asymm hLess (hAscending.1 _ hMem)

/-- Where every position has another above it, going up comes back to where it was. -/
theorem exists_cycle (hNonempty : positions ≠ [])
    (h : ∀ j ∈ positions, ∃ i ∈ positions, above i j) : ∃ i, TransGen above i i := by
  -- without a cycle, being above is a strict order, and a finite set has a topmost member
  by_contra hAcyclic
  have hStrict : IsStrictOrder Nat (TransGen above) :=
    { irrefl := fun i hi => hAcyclic ⟨i, hi⟩
      trans := fun _ _ _ => TransGen.trans }
  have hFounded : {i | i ∈ positions}.WellFoundedOn (TransGen above) :=
    positions.finite_toSet.wellFoundedOn
  obtain ⟨start, hStart⟩ := List.exists_mem_of_ne_nil _ hNonempty
  obtain ⟨top, hTop⟩ := hFounded.has_min Set.univ ⟨⟨start, hStart⟩, trivial⟩
  obtain ⟨i, hi, hAbove⟩ := h top.1 top.2
  exact hTop.2 ⟨i, hi⟩ trivial (TransGen.single hAbove)

end Orders

theorem Linear.acyclic {above : Nat → Nat → Prop} {positions order : List Nat}
    (h : Linear above positions order) (hAbove : ∀ i j, above i j → i ∈ positions ∧ j ∈ positions) :
    ¬∃ i, TransGen above i i := by
  have hBefore : ∀ {i j}, TransGen above i j → order.idxOf i < order.idxOf j := by
    intro i j hPath
    induction hPath with
    | single hStep => exact h.before _ (hAbove _ _ hStep).1 _ (hAbove _ _ hStep).2 hStep
    | tail _ hStep ih =>
      exact Nat.lt_trans ih (h.before _ (hAbove _ _ hStep).1 _ (hAbove _ _ hStep).2 hStep)
  rintro ⟨i, hCycle⟩
  exact Nat.lt_irrefl _ (hBefore hCycle)

def Above (classes : List LinkedClass) (i j : Nat) : Prop :=
  ∃ c d, classes[i]? = some c ∧ classes[j]? = some d ∧ c.type ∈ d.supertypes

def StandAt (classes : List LinkedClass) : List Nat → List LinkedClass → Prop :=
  List.Forall₂ fun i c => classes[i]? = some c

section Placing

variable {classes waiting : List LinkedClass} {positions : List Nat}

theorem isReady_iff (hStand : StandAt classes positions waiting) {j : Nat} {c : LinkedClass}
    (hc : classes[j]? = some c) :
    isReady waiting c = true ↔ ∀ i ∈ positions, ¬Above classes i j := by
  simp only [isReady, List.all_eq_true, Bool.not_eq_true', List.any_eq_false, beq_iff_eq]
  constructor
  · rintro hReady i hi ⟨d, c', hd, hc', hType⟩
    obtain rfl := Option.some.inj (hc.symm.trans hc')
    obtain ⟨w, hw, hAt⟩ := Pairing.exists_of_mem_left hStand hi
    obtain rfl := Option.some.inj (hd.symm.trans hAt)
    exact hReady d.type hType d hw rfl
  · rintro hFree t ht w hw rfl
    obtain ⟨i, hi, hAt⟩ := Pairing.exists_of_mem_right hStand hw
    exact hFree i hi ⟨w, c, hAt, hc, ht⟩

theorem found_le (hStand : StandAt classes positions waiting)
    (hAscending : positions.Pairwise (· < ·)) {k p : Nat}
    (hFound : waiting.findIdx? (isReady waiting) = some k) (hp : positions[k]? = some p) {q : Nat}
    (hq : q ∈ positions) (hFree : ∀ i ∈ positions, ¬Above classes i q) : p ≤ q := by
  obtain ⟨hBound, hReady, hEarlier⟩ := List.findIdx?_eq_some_iff_getElem.mp hFound
  obtain ⟨n, hGet⟩ := List.getElem?_of_mem hq
  obtain ⟨c, hc, hAt⟩ := Pairing.getElem?_left hStand hGet
  obtain ⟨hBound', rfl⟩ := List.getElem?_eq_some_iff.mp hc
  obtain ⟨hk, rfl⟩ := List.getElem?_eq_some_iff.mp hp
  obtain ⟨hn, rfl⟩ := List.getElem?_eq_some_iff.mp hGet
  rcases Nat.lt_trichotomy n k with hLess | rfl | hMore
  · exact absurd ((isReady_iff hStand hAt).mpr hFree) (hEarlier n hLess)
  · exact Nat.le_refl _
  · exact Nat.le_of_lt (List.pairwise_iff_getElem.mp hAscending k n hk hn hMore)

/-- Placing gives the smallest order of what is waiting, unless there is a cycle. -/
theorem place_least (hStand : StandAt classes positions waiting)
    (hAscending : positions.Pairwise (· < ·)) :
    (∃ (order : List Nat) (ordered : List LinkedClass), place waiting = .ok ordered ∧
      StandAt classes order ordered ∧ Linear (Above classes) positions order ∧
      ∀ other, Linear (Above classes) positions other →
        order = other ∨ List.Lex (· < ·) order other) ∨
    (∃ subject, place waiting = .error (.conflict subject .cycle)) ∧
      ∃ i, TransGen (Above classes) i i := by
  induction waiting using place.induct generalizing positions with
  | case1 =>
    cases hStand
    refine .inl ⟨[], [], by rw [place], .nil, ⟨.nil, by simp⟩, ?_⟩
    intro other hOther
    exact .inl (List.perm_nil.mp hOther.perm).symm
  | case2 first others hNone =>
    have hNonempty : positions ≠ [] := by
      rintro rfl
      cases hStand
    refine .inr ⟨⟨_, place_of_none hNone⟩, exists_cycle hNonempty ?_⟩
    intro j hj
    obtain ⟨c, hc, hAt⟩ := Pairing.exists_of_mem_left hStand hj
    have hWaits := List.findIdx?_eq_none_iff.mp hNone c hc
    by_contra hFree
    simp only [not_exists, not_and] at hFree
    rw [(isReady_iff hStand hAt).mpr hFree] at hWaits
    cases hWaits
  | case3 first others k hSome hBound ih =>
    obtain ⟨hFound, hReady, hEarlier⟩ := List.findIdx?_eq_some_iff_getElem.mp hSome
    have hGet := List.getElem?_eq_getElem hBound
    obtain ⟨p, hp, hAt⟩ := Pairing.getElem?_right hStand hGet
    obtain ⟨hk, rfl⟩ := List.getElem?_eq_some_iff.mp hp
    have hFree := (isReady_iff hStand hAt).mp hReady
    have hPerm := (List.getElem_cons_eraseIdx_perm hk).symm
    have hNodup : positions.Nodup := hAscending.imp Nat.ne_of_lt
    have hPlace := place_of_some hSome hGet
    obtain ⟨order, ordered, hRest, hOrder, hLinear, hLeast⟩ | ⟨⟨subject, hRest⟩, hCycle⟩ :=
      ih (Pairing.eraseIdx hStand k) (hAscending.sublist (List.eraseIdx_sublist _ _))
    · rw [hRest] at hPlace
      refine .inl ⟨positions[k] :: order, _, hPlace, .cons hAt hOrder,
        (linear_cons_iff hNodup hPerm).mpr ⟨hFree, hLinear⟩, ?_⟩
      -- any other order starts with a free position too, and the found one is the smallest of these
      intro other hOther
      cases other with
      | nil => exact absurd (hOther.perm.length_eq ▸ hk) (Nat.not_lt_zero _)
      | cons q rest =>
        have hq : q ∈ positions := hOther.perm.mem_iff.mp List.mem_cons_self
        obtain hLess | hSame := Nat.lt_or_eq_of_le
          (found_le hStand hAscending hSome hp hq hOther.free_first)
        · exact .inr (.rel hLess)
        · subst hSame
          obtain ⟨-, hOther⟩ := (linear_cons_iff hNodup hPerm).mp hOther
          exact (hLeast rest hOther).imp (congrArg _) .cons
    · rw [hRest] at hPlace
      exact .inr ⟨⟨subject, hPlace⟩, hCycle⟩

end Placing

theorem above_lt {classes : List LinkedClass} {i j : Nat} (h : Above classes i j) :
    i ∈ List.range classes.length ∧ j ∈ List.range classes.length := by
  obtain ⟨c, d, hc, hd, -⟩ := h
  simp only [List.mem_range]
  exact ⟨(List.getElem?_eq_some_iff.mp hc).1, (List.getElem?_eq_some_iff.mp hd).1⟩

theorem standAt_range (classes : List LinkedClass) :
    StandAt classes (List.range classes.length) classes := by
  refine List.forall₂_iff_get.mpr ⟨List.length_range, ?_⟩
  intro i _ hi
  simp [hi]

theorem StandAt.eq {classes ordered ordered' : List LinkedClass} {order : List Nat}
    (h : StandAt classes order ordered) (h' : StandAt classes order ordered') :
    ordered = ordered' := by
  refine Pairing.eq_of_injective ?_ h.flip h'.flip
  intro c c' i hc hc'
  exact Option.some.inj (hc.symm.trans hc')

theorem arrange_outcome (classes : List LinkedClass) :
    (¬(classes.map LinkedClass.type).Nodup ∧
      ∃ subject, arrange classes = .error (.conflict subject .classTwice)) ∨
    (classes.map LinkedClass.type).Nodup ∧ (∃ i, TransGen (Above classes) i i) ∧
      (∃ subject, arrange classes = .error (.conflict subject .cycle)) ∨
    (classes.map LinkedClass.type).Nodup ∧ (¬∃ i, TransGen (Above classes) i i) ∧
      ∃ (order : List Nat) (ordered : List LinkedClass), arrange classes = .ok ordered ∧
        StandAt classes order ordered ∧
        Linear (Above classes) (List.range classes.length) order ∧
        ∀ other, Linear (Above classes) (List.range classes.length) other →
          order = other ∨ List.Lex (· < ·) order other := by
  unfold arrange
  cases hTwice : firstRedefinition? [] classes with
  | some c =>
    refine .inl ⟨?_, c.descriptor, rfl⟩
    intro hNodup
    have hNone := firstRedefinition?_eq_none_iff.mpr ⟨fun _ _ => List.not_mem_nil, hNodup⟩
    rw [hNone] at hTwice
    cases hTwice
  | none =>
    have hNodup := (firstRedefinition?_eq_none_iff.mp hTwice).2
    obtain ⟨order, ordered, hPlace, hStand, hLinear, hLeast⟩ | ⟨hPlace, hCycle⟩ :=
      place_least (standAt_range classes) List.pairwise_lt_range
    · have hAcyclic := hLinear.acyclic fun _ _ => above_lt
      exact .inr (.inr ⟨hNodup, hAcyclic, order, ordered, hPlace, hStand, hLinear, hLeast⟩)
    · exact .inr (.inl ⟨hNodup, hCycle, hPlace⟩)

end DexForge.ClassOrder

namespace DexForge

def ClassDefinition.DefinedTwice (tables : Tables) (definitions : List ClassDefinition) : Prop :=
  ∃ (i j : Nat) (c d : ClassDefinition) (type : UInt16), i < j ∧ definitions[i]? = some c ∧
    definitions[j]? = some d ∧ tables.type c.type = .ok type ∧ tables.type d.type = .ok type

def ClassDefinition.Above (tables : Tables) (definitions : List ClassDefinition) (i j : Nat) : Prop :=
  ∃ (c d : ClassDefinition) (slot : Slot .type) (type : UInt16), definitions[i]? = some c ∧
    definitions[j]? = some d ∧ slot ∈ d.supertypes ∧ tables.type c.type = .ok type ∧
    tables.type slot = .ok type

theorem Tables.Links.supertypes {tables : Tables} {c : ClassDefinition} {l : LinkedClass}
    (h : tables.Links c l) :
    List.Forall₂ (fun slot index => tables.type slot = .ok index) c.supertypes l.supertypes := by
  refine List.rel_append ?_ h.interfaces
  obtain ⟨hNone, hNone'⟩ | ⟨slot, index, hSlot, hIndex, hType⟩ :=
    Except.optionMapM_eq_ok_iff.mp h.superclass
  · rw [hNone, hNone']
    exact .nil
  · rw [hSlot, hIndex]
    exact .cons hType .nil

namespace ClassOrder

open Relation

section Linked

variable {tables : Tables} {definitions : List ClassDefinition} {classes : List LinkedClass}

theorem definedTwice_iff (hLink : definitions.mapM tables.link = .ok classes) :
    ClassDefinition.DefinedTwice tables definitions ↔ ¬(classes.map LinkedClass.type).Nodup := by
  have hLinked := Except.mapM_eq_ok_iff.mp hLink
  have hTypes : List.Forall₂ (fun (c : ClassDefinition) type => tables.type c.type = .ok type)
      definitions (classes.map LinkedClass.type) := by
    rw [List.forall₂_map_right_iff]
    exact hLinked.imp fun _ _ hLink => (Tables.links_of_link hLink).type
  rw [List.nodup_iff_getElem?_ne_getElem?]
  constructor
  · rintro ⟨i, j, c, d, type, hLess, hc, hd, hType, hType'⟩ hDistinct
    obtain ⟨t, ht, hOwn⟩ := Pairing.getElem?_left hTypes hc
    obtain ⟨t', ht', hOwn'⟩ := Pairing.getElem?_left hTypes hd
    cases hType.symm.trans hOwn
    cases hType'.symm.trans hOwn'
    exact hDistinct i j hLess (List.getElem?_eq_some_iff.mp ht').1 (ht.trans ht'.symm)
  · intro hSame
    simp only [not_forall, not_not] at hSame
    obtain ⟨i, j, hLess, hj, hSame⟩ := hSame
    have ht := List.getElem?_eq_getElem hj
    obtain ⟨c, hc, hType⟩ := Pairing.getElem?_right hTypes (hSame.trans ht)
    obtain ⟨d, hd, hType'⟩ := Pairing.getElem?_right hTypes ht
    exact ⟨i, j, c, d, _, hLess, hc, hd, hType, hType'⟩

theorem above_iff (hLink : definitions.mapM tables.link = .ok classes) (i j : Nat) :
    ClassDefinition.Above tables definitions i j ↔ Above classes i j := by
  have hLinked := Except.mapM_eq_ok_iff.mp hLink
  constructor
  · rintro ⟨c, d, slot, type, hc, hd, hSlot, hType, hSame⟩
    obtain ⟨l, hl, hLink⟩ := Pairing.getElem?_left hLinked hc
    obtain ⟨l', hl', hLink'⟩ := Pairing.getElem?_left hLinked hd
    obtain ⟨index, hIndex, hType'⟩ :=
      Pairing.exists_of_mem_left (Tables.links_of_link hLink').supertypes hSlot
    have hOwn := (Tables.links_of_link hLink).type
    rw [hType] at hOwn
    rw [hSame, hOwn] at hType'
    cases hType'
    exact ⟨l, l', hl, hl', hIndex⟩
  · rintro ⟨l, l', hl, hl', hIndex⟩
    obtain ⟨c, hc, hLink⟩ := Pairing.getElem?_right hLinked hl
    obtain ⟨d, hd, hLink'⟩ := Pairing.getElem?_right hLinked hl'
    obtain ⟨slot, hSlot, hType⟩ :=
      Pairing.exists_of_mem_right (Tables.links_of_link hLink').supertypes hIndex
    exact ⟨c, d, slot, l.type, hc, hd, hSlot, (Tables.links_of_link hLink).type, hType⟩

/-- Arranging fails where a type is defined twice, else where the hierarchy has a cycle, and else
gives the smallest order in which every supertype comes before its subtypes: the given one where it
is such an order. -/
theorem arrange_least (hLink : definitions.mapM tables.link = .ok classes) :
    ((∃ subject, arrange classes = .error (.conflict subject .classTwice)) ↔
      ClassDefinition.DefinedTwice tables definitions) ∧
    (¬ClassDefinition.DefinedTwice tables definitions →
      ((∃ subject, arrange classes = .error (.conflict subject .cycle)) ↔
        ∃ i, TransGen (ClassDefinition.Above tables definitions) i i) ∧
      ((¬∃ i, TransGen (ClassDefinition.Above tables definitions) i i) →
        ∃ (order : List Nat) (ordered : List LinkedClass), arrange classes = .ok ordered ∧
          StandAt classes order ordered ∧
          Linear (ClassDefinition.Above tables definitions) (List.range definitions.length) order ∧
          (∀ other, Linear (ClassDefinition.Above tables definitions)
              (List.range definitions.length) other →
            order = other ∨ List.Lex (· < ·) order other) ∧
          (Linear (ClassDefinition.Above tables definitions) (List.range definitions.length)
              (List.range definitions.length) →
            ordered = classes))) ∧
    ConflictFault.message .classTwice = "class defined more than once" ∧
    ConflictFault.message .cycle = "cyclic class hierarchy" := by
  have hAbove : ClassDefinition.Above tables definitions = Above classes :=
    funext fun i => funext fun j => propext (above_iff hLink i j)
  have hLength : definitions.length = classes.length :=
    (Except.mapM_eq_ok_iff.mp hLink).length_eq
  rw [definedTwice_iff hLink, hAbove, hLength]
  obtain ⟨hTwice, subject, hError⟩ | ⟨hNodup, hCycle, subject, hError⟩ |
    ⟨hNodup, hAcyclic, order, ordered, hOk, hStand, hLinear, hLeast⟩ := arrange_outcome classes
  · exact ⟨⟨fun _ => hTwice, fun _ => ⟨subject, hError⟩⟩, absurd hTwice, rfl, rfl⟩
  · refine ⟨⟨?_, absurd hNodup⟩, fun _ => ⟨⟨fun _ => hCycle, fun _ => ⟨subject, hError⟩⟩,
      absurd hCycle⟩, rfl, rfl⟩
    rintro ⟨subject', hError'⟩
    cases hError.symm.trans hError'
  · refine ⟨⟨?_, absurd hNodup⟩, fun _ => ⟨⟨?_, fun hCycle => absurd hCycle hAcyclic⟩, fun _ => ?_⟩,
      rfl, rfl⟩
    · rintro ⟨subject, hError⟩
      cases hOk.symm.trans hError
    · rintro ⟨subject, hError⟩
      cases hOk.symm.trans hError
    refine ⟨order, ordered, hOk, hStand, hLinear, hLeast, ?_⟩
    intro hGiven
    have hSame : order = List.range classes.length := (hLeast _ hGiven).resolve_right
      (not_lex_of_perm List.pairwise_lt_range hLinear.perm)
    exact (hSame ▸ hStand).eq (standAt_range classes)

end Linked

/-- A leaf in front of the tree that it extends. -/
def grove : List ClassDefinition :=
  [⟨"LLeaf;", ⟨0⟩, .isPublic, some ⟨1⟩, [], none, [], [], [], []⟩,
   ⟨"LTree;", ⟨1⟩, .isPublic, none, [], none, [], [], [], []⟩]

def groveTables : Tables :=
  ⟨⟨#["LLeaf;", "LTree;"], #[0, 1]⟩, ⟨#[0, 1], #[0, 1]⟩, ⟨#[], #[]⟩, ⟨#[], #[]⟩, ⟨#[], #[]⟩⟩

theorem arrange_least_grove : ∃ (classes ordered : List LinkedClass) (order : List Nat),
    grove.mapM groveTables.link = .ok classes ∧ arrange classes = .ok ordered ∧
    StandAt classes order ordered ∧ order.idxOf 1 < order.idxOf 0 := by
  have hAbove : ∀ i j, ClassDefinition.Above groveTables grove i j ↔ i = 1 ∧ j = 0 := by
    intro i j
    constructor
    · rintro ⟨c, d, slot, type, hc, hd, hSlot, hType, hSame⟩
      match j, hd with
      | 0, rfl =>
        obtain rfl := List.mem_singleton.mp hSlot
        match i, hc with
        | 0, rfl => exact absurd (hType.trans hSame.symm) (by decide)
        | 1, rfl => exact ⟨rfl, rfl⟩
      | 1, rfl => cases hSlot
    · rintro ⟨rfl, rfl⟩
      exact ⟨_, _, ⟨1⟩, 1, rfl, rfl, List.mem_singleton_self _, rfl, rfl⟩
  have hLinear : Linear (ClassDefinition.Above groveTables grove) (List.range 2) [1, 0] := by
    refine ⟨by decide, ?_⟩
    intro i _ j _ h
    obtain ⟨rfl, rfl⟩ := (hAbove i j).mp h
    decide
  have hAcyclic := hLinear.acyclic fun i j h => by
    obtain ⟨rfl, rfl⟩ := (hAbove i j).mp h
    decide
  have hOnce : ¬ClassDefinition.DefinedTwice groveTables grove := by
    rw [definedTwice_iff rfl]
    decide
  have hLink : ∃ classes, grove.mapM groveTables.link = .ok classes := ⟨_, rfl⟩
  obtain ⟨classes, hLink⟩ := hLink
  obtain ⟨order, ordered, hOk, hStand, hOrder, -, -⟩ :=
    ((arrange_least hLink).2.1 hOnce).2 hAcyclic
  exact ⟨classes, ordered, order, hLink, hOk, hStand,
    hOrder.before 1 (by decide) 0 (by decide) ((hAbove 1 0).mpr ⟨rfl, rfl⟩)⟩

end ClassOrder

end DexForge
