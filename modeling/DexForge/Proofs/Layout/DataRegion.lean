import DexForge.Layout.DataRegion
import DexForge.Proofs.Bytes.Position
import DexForge.Proofs.Control.Except

/-! # Items stay where they were placed

Every action on a data region appends bytes and changes none, so an item that stands at an offset
stands there in every later region and in the file.
-/
set_option autoImplicit false

namespace DexForge

namespace DataRegion

structure Extends (r r' : DataRegion) : Prop where
  base : r'.base = r.base
  bytes : r.bytes.toList <+: r'.bytes.toList

theorem Extends.refl (r : DataRegion) : r.Extends r := ⟨rfl, List.prefix_refl _⟩

theorem Extends.trans {r s t : DataRegion} (h : r.Extends s) (h' : s.Extends t) : r.Extends t :=
  ⟨h'.base.trans h.base, h.bytes.trans h'.bytes⟩

theorem Extends.stop_le {r r' : DataRegion} (h : r.Extends r') : r.stop ≤ r'.stop := by
  have hLength := h.bytes.length_le
  simp only [Array.length_toList] at hLength
  rw [stop, stop, h.base]
  omega

theorem toList_append (r : DataRegion) (part : List UInt8) :
    (r.append part).bytes.toList = r.bytes.toList ++ part := by
  simp [append]

theorem extends_append (r : DataRegion) (part : List UInt8) : r.Extends (r.append part) := by
  refine ⟨rfl, ?_⟩
  rw [toList_append]
  exact List.prefix_append _ _

theorem stop_append (r : DataRegion) (part : List UInt8) :
    (r.append part).stop = r.stop + part.length := by
  rw [stop, stop, ← Array.length_toList, toList_append, List.length_append, Array.length_toList,
    append, Nat.add_assoc]

structure Holds (r : DataRegion) (offset : Nat) (part : List UInt8) : Prop where
  base_le : r.base ≤ offset
  stop_le : offset + part.length ≤ r.stop
  holdsAt : HoldsAt r.bytes (offset - r.base) part

theorem Holds.mono {r r' : DataRegion} {offset : Nat} {part : List UInt8}
    (h : r.Holds offset part) (hExtends : r.Extends r') : r'.Holds offset part := by
  refine ⟨?_, Nat.le_trans h.stop_le hExtends.stop_le, ?_⟩
  · rw [hExtends.base]
    exact h.base_le
  · obtain ⟨back, hBack⟩ := hExtends.bytes
    obtain ⟨rest, hRest⟩ := h.holdsAt
    have hInside : offset - r.base ≤ r.bytes.toList.length := by
      have hStop := h.stop_le
      rw [stop] at hStop
      rw [Array.length_toList]
      omega
    refine ⟨rest ++ back, ?_⟩
    rw [hExtends.base, ← hBack, List.drop_append_of_le_length hInside, ← hRest, List.append_assoc]

theorem holds_append (r : DataRegion) (part : List UInt8) :
    (r.append part).Holds r.stop part := by
  refine ⟨?_, ?_, ?_⟩
  · exact Nat.le_add_right _ _
  · exact Nat.le_of_eq (r.stop_append part).symm
  · refine ⟨[], ?_⟩
    have hStart : r.stop - (r.append part).base = r.bytes.toList.length := by
      simp [stop, append]
    rw [toList_append, hStart, List.drop_left, List.append_nil]

theorem Holds.holdsAt_file {r : DataRegion} {offset : Nat} {part head : List UInt8} {file : Bytes}
    (h : r.Holds offset part) (hFile : file.toList = head ++ r.bytes.toList)
    (hHead : head.length = r.base) : HoldsAt file offset part := by
  have hOffset : offset = head.length + (offset - r.base) := by
    have hBase := h.base_le
    omega
  rw [HoldsAt, hFile, hOffset, ← List.drop_drop, List.drop_left]
  exact h.holdsAt

end DataRegion

namespace Placing

open DexForge.Except

variable {α β : Type}

theorem bind_eq_ok_iff {x : Placing α} {f : α → Placing β} {r r' : DataRegion} {b : β} :
    (x >>= f) r = .ok (b, r') ↔ ∃ a s, x r = .ok (a, s) ∧ f a s = .ok (b, r') := by
  have hRun : (x >>= f) r = (x r >>= fun p => f p.1 p.2) := rfl
  rw [hRun, Except.bind_eq_ok_iff, Prod.exists]

theorem pure_eq_ok_iff {a b : α} {r r' : DataRegion} :
    (pure a : Placing α) r = .ok (b, r') ↔ a = b ∧ r = r' := by
  have hRun : (pure a : Placing α) r = .ok (a, r) := rfl
  rw [hRun, Except.ok.injEq, Prod.mk.injEq]

theorem lift_eq_ok_iff {x : Except SynthesisError α} {a : α} {r r' : DataRegion} :
    (monadLift x : Placing α) r = .ok (a, r') ↔ x = .ok a ∧ r = r' := by
  have hRun : (monadLift x : Placing α) r = (x >>= fun a => .ok (a, r)) := rfl
  rw [hRun, Except.bind_eq_ok_iff]
  constructor
  · rintro ⟨b, hx, hb⟩
    cases hb
    exact ⟨hx, rfl⟩
  · rintro ⟨hx, rfl⟩
    exact ⟨a, hx, rfl⟩

theorem throw_ne_ok {e : SynthesisError} {a : α} {r r' : DataRegion} :
    (throw e : Placing α) r ≠ .ok (a, r') := by
  intro h
  have hRun : (throw e : Placing α) r = .error e := rfl
  rw [hRun] at h
  cases h

theorem offset32_eq_ok {placement : Placement} {offset : Nat} {o : UInt32}
    (h : offset32 placement offset = .ok o) : o.toNat = offset := by
  unfold offset32 at h
  split at h
  · next hSmall =>
    cases h
    exact UInt32.toNat_ofNat_of_lt hSmall
  · cases h

theorem here_eq_ok {placement : Placement} {r r' : DataRegion} {o : UInt32}
    (h : here placement r = .ok (o, r')) : o.toNat = r.stop ∧ r = r' := by
  obtain ⟨offset, hOffset, h⟩ := Except.bind_eq_ok_iff.mp h
  rw [Except.pure_eq_ok_iff, Prod.mk.injEq] at h
  obtain ⟨rfl, rfl⟩ := h
  exact ⟨offset32_eq_ok hOffset, rfl⟩

theorem append_eq_ok {part : List UInt8} {r r' : DataRegion} {u : Unit}
    (h : append part r = .ok (u, r')) :
    r.Extends r' ∧ r'.Holds r.stop part ∧ r'.stop = r.stop + part.length := by
  have hRun : append part r = .ok ((), r.append part) := rfl
  rw [hRun] at h
  cases h
  exact ⟨r.extends_append part, r.holds_append part, r.stop_append part⟩

theorem align_eq_ok {r r' : DataRegion} {u : Unit} (h : align r = .ok (u, r')) :
    r.Extends r' ∧ 4 ∣ r'.stop := by
  have hRun : align r = .ok ((), r.pad) := rfl
  rw [hRun] at h
  cases h
  refine ⟨r.extends_append _, ?_⟩
  rw [DataRegion.pad, DataRegion.stop_append, List.length_replicate, alignWord]
  omega

structure Appended (r r' : DataRegion) (offset : UInt32) (part : List UInt8) : Prop where
  extended : r.Extends r'
  behind : r.stop ≤ offset.toNat
  holds : r'.Holds offset.toNat part

theorem item_eq_ok {placement : Placement} {part : List UInt8} {r r' : DataRegion} {o : UInt32}
    (h : item placement part r = .ok (o, r')) : Appended r r' o part ∧ o.toNat = r.stop := by
  obtain ⟨offset, s, hHere, h⟩ := bind_eq_ok_iff.mp h
  obtain ⟨hOffset, rfl⟩ := here_eq_ok hHere
  obtain ⟨u, t, hAppend, h⟩ := bind_eq_ok_iff.mp h
  obtain ⟨rfl, rfl⟩ := pure_eq_ok_iff.mp h
  obtain ⟨hExtends, hHolds, -⟩ := append_eq_ok hAppend
  refine ⟨⟨hExtends, Nat.le_of_eq hOffset.symm, ?_⟩, hOffset⟩
  rw [hOffset]
  exact hHolds

theorem alignedItem_eq_ok {placement : Placement} {part : List UInt8} {r r' : DataRegion}
    {o : UInt32} (h : alignedItem placement part r = .ok (o, r')) :
    Appended r r' o part ∧ 4 ∣ o.toNat := by
  obtain ⟨u, s, hAlign, h⟩ := bind_eq_ok_iff.mp h
  obtain ⟨hExtends, hAligned⟩ := align_eq_ok hAlign
  obtain ⟨hItem, hOffset⟩ := item_eq_ok h
  refine ⟨⟨hExtends.trans hItem.extended, Nat.le_trans hExtends.stop_le hItem.behind, hItem.holds⟩,
    ?_⟩
  rw [hOffset]
  exact hAligned

theorem mapM_cons_eq_ok {f : α → Placing β} {a : α} {as : List α} {r r' : DataRegion} {bs : List β}
    (h : (a :: as).mapM f r = .ok (bs, r')) :
    ∃ b tail s, bs = b :: tail ∧ f a r = .ok (b, s) ∧ as.mapM f s = .ok (tail, r') := by
  rw [List.mapM_cons] at h
  obtain ⟨b, s, hHead, h⟩ := bind_eq_ok_iff.mp h
  obtain ⟨tail, t, hTail, h⟩ := bind_eq_ok_iff.mp h
  obtain ⟨rfl, rfl⟩ := pure_eq_ok_iff.mp h
  exact ⟨b, tail, s, rfl, hHead, hTail⟩

/-- When every step places what its result tells, a whole run does, in the last region. -/
theorem mapM_eq_ok {f : α → Placing β} {P : DataRegion → α → β → Prop}
    (hMono : ∀ {r r' a b}, r.Extends r' → P r a b → P r' a b) {as : List α}
    (hStep : ∀ a ∈ as, ∀ {r b r'}, f a r = .ok (b, r') → r.Extends r' ∧ P r' a b)
    {r r' : DataRegion} {bs : List β} (h : as.mapM f r = .ok (bs, r')) :
    r.Extends r' ∧ List.Forall₂ (P r') as bs := by
  induction as generalizing r bs with
  | nil =>
    obtain ⟨rfl, rfl⟩ := pure_eq_ok_iff.mp h
    exact ⟨.refl r, .nil⟩
  | cons a as ih =>
    obtain ⟨b, tail, s, rfl, hHead, hTail⟩ := mapM_cons_eq_ok h
    obtain ⟨hFirst, hb⟩ := hStep a List.mem_cons_self hHead
    obtain ⟨hRest, hTail⟩ := ih (fun x hx => hStep x (List.mem_cons_of_mem _ hx)) hTail
    exact ⟨hFirst.trans hRest, .cons (hMono hRest hb) hTail⟩

/-- When every step places an item that starts at `start`, the items of a run start one behind the
other. -/
theorem mapM_ascending {f : α → Placing β} (start : β → Nat)
    (hStep : ∀ {a r b r'}, f a r = .ok (b, r') → r.stop ≤ start b ∧ start b < r'.stop)
    {as : List α} {r r' : DataRegion} {bs : List β} (h : as.mapM f r = .ok (bs, r')) :
    (∀ b ∈ bs, r.stop ≤ start b) ∧ bs.Pairwise fun a b => start a < start b := by
  induction as generalizing r bs with
  | nil =>
    obtain ⟨rfl, rfl⟩ := pure_eq_ok_iff.mp h
    exact ⟨fun b hb => absurd hb List.not_mem_nil, .nil⟩
  | cons a as ih =>
    obtain ⟨b, tail, s, rfl, hHead, hTail⟩ := mapM_cons_eq_ok h
    obtain ⟨hStart, hStop⟩ := hStep hHead
    obtain ⟨hBehind, hPairwise⟩ := ih hTail
    have hLater : ∀ x ∈ tail, start b < start x := fun x hx =>
      Nat.lt_of_lt_of_le hStop (hBehind x hx)
    refine ⟨?_, .cons hLater hPairwise⟩
    intro x hx
    obtain rfl | hx := List.mem_cons.mp hx
    · exact hStart
    · exact Nat.le_of_lt (Nat.lt_of_le_of_lt hStart (hLater x hx))

end Placing

end DexForge
