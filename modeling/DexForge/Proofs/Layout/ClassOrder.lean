import DexForge.Layout.ClassOrder
import DexForge.Proofs.Control.Except
import DexForge.Proofs.Control.Pairing
import Mathlib.Data.List.Perm.Basic

/-! # Arranging classes

Arranging loses and adds no class, and depends only on the names of the classes and their
supertypes.
-/
set_option autoImplicit false

namespace DexForge.ClassOrder

theorem place_of_none {first : LinkedClass} {others : List LinkedClass}
    (h : (first :: others).findIdx? (isReady (first :: others)) = none) :
    place (first :: others) = .error (.conflict first.descriptor .cycle) := by
  rw [place]
  split
  · rfl
  · next i hSome =>
    rw [h] at hSome
    cases hSome

theorem place_of_some {first c : LinkedClass} {others : List LinkedClass} {i : Nat}
    (h : (first :: others).findIdx? (isReady (first :: others)) = some i)
    (hc : (first :: others)[i]? = some c) :
    place (first :: others) = (place ((first :: others).eraseIdx i)).map (c :: ·) := by
  rw [place]
  split
  · next hNone =>
    rw [h] at hNone
    cases hNone
  · next j hFound =>
    obtain rfl := Option.some.inj (h.symm.trans hFound)
    rw [List.getElem?_eq_getElem (List.findIdx?_eq_some_iff_getElem.mp h).1] at hc
    rw [← Option.some.inj hc]

theorem place_perm {waiting ordered : List LinkedClass} (h : place waiting = .ok ordered) :
    ordered.Perm waiting := by
  induction waiting using place.induct generalizing ordered with
  | case1 =>
    rw [place] at h
    cases h
    exact .nil
  | case2 first others hNone =>
    rw [place_of_none hNone] at h
    cases h
  | case3 first others i hSome hBound ih =>
    rw [place_of_some hSome (List.getElem?_eq_getElem hBound)] at h
    obtain ⟨rest, hRest, rfl⟩ := Except.map_eq_ok_iff.mp h
    exact ((ih hRest).cons _).trans (List.getElem_cons_eraseIdx_perm hBound)

theorem arrange_perm {classes ordered : List LinkedClass} (h : arrange classes = .ok ordered) :
    ordered.Perm classes := by
  unfold arrange at h
  split at h
  · cases h
  · exact place_perm h

theorem firstRedefinition?_eq_none_iff {classes : List LinkedClass} {seen : List UInt16} :
    firstRedefinition? seen classes = none ↔
      (∀ c ∈ classes, c.type ∉ seen) ∧ (classes.map LinkedClass.type).Nodup := by
  induction classes generalizing seen with
  | nil => simp [firstRedefinition?]
  | cons first rest ih =>
    rw [firstRedefinition?, List.map_cons, List.nodup_cons, List.forall_mem_cons]
    split
    · next hSeen => simp [List.contains_iff_mem.mp hSeen]
    · next hSeen =>
      rw [List.contains_iff_mem] at hSeen
      simp only [ih, List.mem_cons, not_or, List.mem_map, not_exists, not_and, hSeen,
        not_false_eq_true, true_and]
      constructor
      · rintro ⟨hRest, hNodup⟩
        exact ⟨fun c hc => (hRest c hc).2, fun c hc => (hRest c hc).1, hNodup⟩
      · rintro ⟨hRest, hFirst, hNodup⟩
        exact ⟨fun c hc => ⟨hFirst c hc, hRest c hc⟩, hNodup⟩

theorem nodup_of_arrange {classes ordered : List LinkedClass} (h : arrange classes = .ok ordered) :
    (ordered.map LinkedClass.type).Nodup := by
  have hPerm := arrange_perm h
  rw [(hPerm.map LinkedClass.type).nodup_iff]
  unfold arrange at h
  split at h
  · cases h
  · next hNone => exact (firstRedefinition?_eq_none_iff.mp hNone).2

theorem place_of_unrelated {waiting : List LinkedClass}
    (h : ∀ c ∈ waiting, ∀ w ∈ waiting, w.type ∉ c.supertypes) : place waiting = .ok waiting := by
  induction waiting with
  | nil => rw [place]
  | cons first others ih =>
    have hReady : isReady (first :: others) first = true := by
      simp only [isReady, List.all_eq_true, Bool.not_eq_true', List.any_eq_false, beq_iff_eq]
      rintro t ht w hw rfl
      exact h first List.mem_cons_self w hw ht
    have hFirst : (first :: others).findIdx? (isReady (first :: others)) = some 0 := by
      rw [List.findIdx?_cons, if_pos hReady]
    have hOthers := ih fun c hc w hw =>
      h c (List.mem_cons_of_mem _ hc) w (List.mem_cons_of_mem _ hw)
    rw [place_of_some hFirst rfl, List.eraseIdx_cons_zero, hOthers]
    rfl

theorem arrange_of_unrelated {classes : List LinkedClass}
    (hNodup : (classes.map LinkedClass.type).Nodup)
    (h : ∀ c ∈ classes, ∀ w ∈ classes, w.type ∉ c.supertypes) : arrange classes = .ok classes := by
  have hNone : firstRedefinition? [] classes = none :=
    firstRedefinition?_eq_none_iff.mpr ⟨fun _ _ => List.not_mem_nil, hNodup⟩
  rw [arrange, hNone]
  exact place_of_unrelated h

theorem isReady_singleton_iff {c : LinkedClass} : isReady [c] c = true ↔ c.type ∉ c.supertypes := by
  simp only [isReady, List.all_eq_true, List.any_cons, List.any_nil, Bool.or_false,
    Bool.not_eq_true', beq_eq_false_iff_ne]
  constructor
  · intro h hMem
    exact h c.type hMem rfl
  · rintro h t ht rfl
    exact h ht

theorem arrange_singleton_eq_ok_iff {c : LinkedClass} {ordered : List LinkedClass} :
    arrange [c] = .ok ordered ↔ c.type ∉ c.supertypes ∧ ordered = [c] := by
  have hNone : firstRedefinition? [] [c] = none := rfl
  rw [arrange, hNone, ← isReady_singleton_iff]
  dsimp only
  cases hReady : isReady [c] c with
  | true =>
    have hFirst : [c].findIdx? (isReady [c]) = some 0 := by rw [List.findIdx?_cons, if_pos hReady]
    rw [place_of_some hFirst rfl, List.eraseIdx_cons_zero, place]
    simp [Except.map, eq_comm]
  | false =>
    rw [place_of_none (by simp [hReady])]
    simp

/-- The same for the order of classes. -/
structure SameNode (c c' : LinkedClass) : Prop where
  type : c.type = c'.type
  descriptor : c.descriptor = c'.descriptor
  supertypes : c.supertypes = c'.supertypes

section Congruence

variable {R : LinkedClass → LinkedClass → Prop} (hR : ∀ {c c'}, R c c' → SameNode c c')
include hR

theorem firstRedefinition?_congr {classes classes' : List LinkedClass}
    (h : List.Forall₂ R classes classes') (seen : List UInt16) :
    (firstRedefinition? seen classes).map LinkedClass.descriptor =
      (firstRedefinition? seen classes').map LinkedClass.descriptor := by
  induction h generalizing seen with
  | nil => rfl
  | cons hHead _ ih =>
    rw [firstRedefinition?, firstRedefinition?, (hR hHead).type]
    split
    · exact congrArg some (hR hHead).descriptor
    · exact ih _

theorem isReady_congr {waiting waiting' : List LinkedClass} (h : List.Forall₂ R waiting waiting')
    {c c' : LinkedClass} (hc : R c c') : isReady waiting c = isReady waiting' c' := by
  have hTypes : waiting.map LinkedClass.type = waiting'.map LinkedClass.type := by
    rw [← List.forall₂_eq_eq_eq, List.forall₂_map_left_iff, List.forall₂_map_right_iff]
    exact h.imp fun _ _ hc => (hR hc).type
  have hAny : ∀ (t : UInt16) (classes : List LinkedClass), classes.any (fun w => w.type == t) =
      (classes.map LinkedClass.type).any (· == t) := fun t classes => by
    rw [List.any_map]
    rfl
  simp only [isReady, hAny, hTypes, (hR hc).supertypes]

theorem place_congr {waiting waiting' : List LinkedClass} (h : List.Forall₂ R waiting waiting') :
    Except.Matches (List.Forall₂ R) (place waiting) (place waiting') := by
  induction waiting using place.induct generalizing waiting' with
  | case1 =>
    cases h
    rw [place]
    exact .ok .nil
  | case2 first others hNone =>
    have hReady := Pairing.findIdx?_congr (h.imp fun _ _ => isReady_congr hR h)
    rw [hNone] at hReady
    cases h with
    | cons hHead hTail =>
      rw [place_of_none hNone, place_of_none hReady.symm, (hR hHead).descriptor]
      exact .error _
  | case3 first others i hSome hBound ih =>
    have hReady := Pairing.findIdx?_congr (h.imp fun _ _ => isReady_congr hR h)
    rw [hSome] at hReady
    have hGet : (first :: others)[i]? = some (first :: others)[i] := List.getElem?_eq_getElem hBound
    obtain ⟨c', hGet', hc⟩ := Pairing.getElem?_left h hGet
    have hRest := ih (Pairing.eraseIdx h i)
    cases h with
    | cons hHead hTail =>
      rw [place_of_some hSome hGet, place_of_some hReady.symm hGet']
      exact hRest.map fun _ _ hOrdered => .cons hc hOrdered

theorem arrange_congr {classes classes' : List LinkedClass} (h : List.Forall₂ R classes classes') :
    Except.Matches (List.Forall₂ R) (arrange classes) (arrange classes') := by
  have hFirst := firstRedefinition?_congr hR h []
  unfold arrange
  cases hSeen : firstRedefinition? [] classes with
  | none =>
    rw [hSeen, Option.map_none, eq_comm, Option.map_eq_none_iff] at hFirst
    rw [hFirst]
    exact place_congr hR h
  | some c =>
    rw [hSeen, Option.map_some, eq_comm, Option.map_eq_some_iff] at hFirst
    obtain ⟨c', hSeen', hName⟩ := hFirst
    dsimp only
    rw [hSeen', ← hName]
    exact .error _

end Congruence

end DexForge.ClassOrder
