import DexForge.Proofs.Layout.DataRegion
import Mathlib.Data.List.Basic

/-! # Pieces of a file that stand in order

What a part of the layout writes is a sequence of pieces. Between two neighbours there may be
padding, and no piece reaches into the next one.
-/
set_option autoImplicit false

namespace DexForge

structure Piece where
  offset : Nat
  bytes : List UInt8
deriving DecidableEq

namespace Piece

def stop (p : Piece) : Nat := p.offset + p.bytes.length

def Apart (p q : Piece) : Prop := p.stop ≤ q.offset ∨ q.stop ≤ p.offset

theorem Apart.symm {p q : Piece} (h : p.Apart q) : q.Apart p := Or.symm h

theorem Apart.offset_ne {p q : Piece} (h : p.Apart q) (hp : p.bytes ≠ []) (hq : q.bytes ≠ []) :
    p.offset ≠ q.offset := by
  have hPositive := List.length_pos_iff.mpr hp
  have hPositive' := List.length_pos_iff.mpr hq
  rw [Apart, stop, stop] at h
  omega

inductive InOrder : Nat → List Piece → Nat → Prop where
  | nil {start stop : Nat} (h : start ≤ stop) : InOrder start [] stop
  | cons {start stop : Nat} {p : Piece} {rest : List Piece} (h : start ≤ p.offset)
      (hRest : InOrder p.stop rest stop) : InOrder start (p :: rest) stop

namespace InOrder

variable {start middle stop : Nat} {p : Piece} {ps qs : List Piece}

theorem singleton (hStart : start ≤ p.offset) (hStop : p.stop ≤ stop) : InOrder start [p] stop :=
  .cons hStart (.nil hStop)

theorem le (h : InOrder start ps stop) : start ≤ stop := by
  induction h with
  | nil h => exact h
  | @cons _ _ p _ h _ ih => exact Nat.le_trans (Nat.le_trans h (Nat.le_add_right _ _)) ih

theorem of_le (hStart : start ≤ middle) (h : InOrder middle ps stop) : InOrder start ps stop := by
  cases h with
  | nil h => exact .nil (Nat.le_trans hStart h)
  | cons h hRest => exact .cons (Nat.le_trans hStart h) hRest

theorem append (h : InOrder start ps middle) (h' : InOrder middle qs stop) :
    InOrder start (ps ++ qs) stop := by
  induction h with
  | nil h => exact of_le h h'
  | cons h _ ih => exact .cons h (ih h')

theorem start_le (h : InOrder start ps stop) : ∀ p ∈ ps, start ≤ p.offset := by
  induction h with
  | nil => simp
  | @cons _ _ p _ h _ ih =>
    rw [List.forall_mem_cons]
    refine ⟨h, fun q hq => ?_⟩
    exact Nat.le_trans (Nat.le_trans h (Nat.le_add_right _ _)) (ih q hq)

theorem stop_le (h : InOrder start ps stop) : ∀ p ∈ ps, p.stop ≤ stop := by
  induction h with
  | nil => simp
  | cons _ hRest ih =>
    rw [List.forall_mem_cons]
    exact ⟨hRest.le, ih⟩

theorem sublist (h : InOrder start ps stop) (hSub : qs.Sublist ps) : InOrder start qs stop := by
  induction hSub generalizing start with
  | slnil => exact h
  | cons p _ ih =>
    cases h with
    | cons hHead hRest =>
      exact of_le (Nat.le_trans hHead (Nat.le_add_right _ _)) (ih hRest)
  | cons_cons p _ ih =>
    cases h with
    | cons hHead hRest => exact .cons hHead (ih hRest)

theorem length_le (h : InOrder start ps stop) (hBytes : ∀ p ∈ ps, p.bytes ≠ []) :
    start + ps.length ≤ stop := by
  induction h with
  | nil h => exact h
  | @cons start stop p rest h _ ih =>
    rw [List.forall_mem_cons] at hBytes
    have hPositive := List.length_pos_iff.mpr hBytes.1
    have hRest := ih hBytes.2
    rw [Piece.stop] at hRest
    rw [List.length_cons]
    omega

theorem pairwise (h : InOrder start ps stop) : ps.Pairwise fun p q => p.stop ≤ q.offset := by
  induction h with
  | nil => exact .nil
  | cons _ hRest ih => exact .cons hRest.start_le ih

theorem min?_offset (h : InOrder start ps stop) :
    (ps.map Piece.offset).min? = ps.head?.map Piece.offset := by
  cases h with
  | nil => rfl
  | @cons _ _ p rest _ hRest =>
    rw [List.head?_cons, Option.map_some, List.min?_eq_some_iff]
    refine ⟨List.mem_cons_self, ?_⟩
    rw [List.forall_mem_map, List.forall_mem_cons]
    refine ⟨Nat.le_refl _, fun q hq => ?_⟩
    exact Nat.le_trans (Nat.le_add_right _ _) (hRest.start_le q hq)

end InOrder

end Piece

def pieceRow {α : Type} (start width : Nat) (encode : α → List UInt8) (entries : List α) :
    List Piece :=
  entries.zipIdx.map fun (a, i) => ⟨start + i * width, encode a⟩

section Rows

variable {α : Type} {start width : Nat} {encode : α → List UInt8} {entries : List α}

theorem inOrder_zipIdx (hWidth : ∀ a, (encode a).length = width) (start : Nat) (entries : List α)
    (k : Nat) :
    Piece.InOrder (start + k * width)
      ((entries.zipIdx k).map fun (a, i) => ⟨start + i * width, encode a⟩)
      (start + (k + entries.length) * width) := by
  induction entries generalizing k with
  | nil => exact .nil (Nat.le_refl _)
  | cons a rest ih =>
    rw [List.zipIdx_cons, List.map_cons]
    refine .cons (Nat.le_refl _) ?_
    have hNext : Piece.stop ⟨start + k * width, encode a⟩ = start + (k + 1) * width := by
      rw [Piece.stop, hWidth, Nat.add_assoc, ← Nat.succ_mul]
    have hCount : k + (a :: rest).length = k + 1 + rest.length := by
      rw [List.length_cons]
      omega
    rw [hNext, hCount]
    exact ih (k + 1)

theorem inOrder_pieceRow (hWidth : ∀ a, (encode a).length = width) :
    Piece.InOrder start (pieceRow start width encode entries) (start + entries.length * width) := by
  have h := inOrder_zipIdx hWidth start entries 0
  rwa [Nat.zero_mul, Nat.add_zero, Nat.zero_add] at h

theorem inOrder_pieceRow_append {count stop : Nat} {ps : List Piece}
    (hWidth : ∀ a, (encode a).length = width) (hCount : entries.length = count)
    (hRest : Piece.InOrder (start + width * count) ps stop) :
    Piece.InOrder start (pieceRow start width encode entries ++ ps) stop := by
  apply (inOrder_pieceRow hWidth).append
  rwa [hCount, Nat.mul_comm]

theorem holdsAt_of_mem_pieceRow {bytes : Bytes} (hWidth : ∀ a, (encode a).length = width)
    (h : HoldsAt bytes start (entries.flatMap encode)) {p : Piece}
    (hp : p ∈ pieceRow start width encode entries) : HoldsAt bytes p.offset p.bytes := by
  obtain ⟨⟨a, i⟩, hEntry, rfl⟩ := List.mem_map.mp hp
  exact h.flatMap_getElem? (fun a _ => hWidth a) (List.mem_zipIdx_iff_getElem?.mp hEntry)

end Rows

namespace Placing

open Piece

/-- Between `r` and `r'` the pieces were appended, and nothing else but padding. -/
structure Fills (r r' : DataRegion) (ps : List Piece) : Prop where
  extended : r.Extends r'
  inOrder : InOrder r.stop ps r'.stop
  holds : ∀ p ∈ ps, r'.Holds p.offset p.bytes

variable {α β : Type} {r s r' : DataRegion} {ps qs : List Piece}

theorem fills_of_extends (h : r.Extends r') : Fills r r' [] :=
  ⟨h, .nil h.stop_le, by simp⟩

theorem Fills.trans (h : Fills r s ps) (h' : Fills s r' qs) : Fills r r' (ps ++ qs) := by
  refine ⟨h.extended.trans h'.extended, h.inOrder.append h'.inOrder, ?_⟩
  rw [List.forall_mem_append]
  exact ⟨fun p hp => (h.holds p hp).mono h'.extended, h'.holds⟩

theorem Appended.fills {offset : UInt32} {part : List UInt8} (h : Appended r r' offset part) :
    Fills r r' [⟨offset.toNat, part⟩] :=
  ⟨h.extended, .singleton h.behind h.holds.stop_le, by simpa using h.holds⟩

theorem mapM_fills {f : α → Placing β} (pieces : α → β → List Piece) {P : β → Prop} {as : List α}
    {bs : List β}
    (hStep : ∀ {a r b r'}, f a r = .ok (b, r') → Fills r r' (pieces a b) ∧ P b)
    (h : as.mapM f r = .ok (bs, r')) :
    Fills r r' ((as.zip bs).flatMap fun x => pieces x.1 x.2) ∧ as.length = bs.length ∧
      ∀ b ∈ bs, P b := by
  induction as generalizing r bs with
  | nil =>
    obtain ⟨rfl, rfl⟩ := pure_eq_ok_iff.mp h
    exact ⟨fills_of_extends (.refl r), rfl, by simp⟩
  | cons a as ih =>
    obtain ⟨b, tail, s, rfl, hHead, hTail⟩ := mapM_cons_eq_ok h
    obtain ⟨hFirst, hb⟩ := hStep hHead
    obtain ⟨hRest, hLength, hTail⟩ := ih hTail
    refine ⟨hFirst.trans hRest, congrArg Nat.succ hLength, ?_⟩
    rw [List.forall_mem_cons]
    exact ⟨hb, hTail⟩

theorem mapM_fills_right {f : α → Placing β} {pieces : β → List Piece} {P : β → Prop} {as : List α}
    {bs : List β} (hStep : ∀ {a r b r'}, f a r = .ok (b, r') → Fills r r' (pieces b) ∧ P b)
    (h : as.mapM f r = .ok (bs, r')) :
    Fills r r' (bs.flatMap pieces) ∧ as.length = bs.length ∧ ∀ b ∈ bs, P b := by
  obtain ⟨hFills, hLength, hP⟩ := mapM_fills (fun _ b => pieces b) hStep h
  refine ⟨?_, hLength, hP⟩
  have hRight : ((as.zip bs).map Prod.snd).flatMap pieces = bs.flatMap pieces := by
    rw [List.map_snd_zip (Nat.le_of_eq hLength.symm)]
  rw [List.flatMap_map] at hRight
  rwa [hRight] at hFills

theorem mapM_item_fills {place : List UInt8 → Placing UInt32} {encode : α → List UInt8}
    {P : UInt32 → Prop}
    (hPlace : ∀ {part r o r'}, place part r = .ok (o, r') → Appended r r' o part ∧ P o)
    {items : List α} {offsets : List UInt32}
    (h : items.mapM (fun item => place (encode item)) r = .ok (offsets, r')) :
    Fills r r' ((items.zip offsets).map fun x => ⟨x.2.toNat, encode x.1⟩) ∧
      items.length = offsets.length ∧ ∀ o ∈ offsets, P o := by
  rw [List.map_eq_flatMap]
  exact mapM_fills (fun item (offset : UInt32) => [⟨offset.toNat, encode item⟩])
    (fun hStep => ⟨(hPlace hStep).1.fills, (hPlace hStep).2⟩) h

end Placing

end DexForge
