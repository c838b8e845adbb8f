import DexForge.Bytes.LittleEndian

/-! # Runs of bytes at a position

A writer appends runs of bytes and a reader looks at single bytes. `HoldsAt` is what both sides
agree on: a run that stands at a position splits where it was put together.
-/
set_option autoImplicit false

namespace DexForge

/-- The run `part` stands in `bytes` from position `i` on. -/
def HoldsAt (bytes : Bytes) (i : Nat) (part : List UInt8) : Prop :=
  part <+: bytes.toList.drop i

namespace HoldsAt

variable {bytes : Bytes} {i : Nat} {a b part : List UInt8}

theorem of_split {front back : List UInt8} (h : bytes.toList = front ++ part ++ back) :
    HoldsAt bytes front.length part := by
  refine ⟨back, ?_⟩
  rw [h, List.append_assoc, List.drop_left]

theorem append_iff :
    HoldsAt bytes i (a ++ b) ↔ HoldsAt bytes i a ∧ HoldsAt bytes (i + a.length) b := by
  unfold HoldsAt
  constructor
  · rintro ⟨rest, hRest⟩
    rw [List.append_assoc] at hRest
    refine ⟨⟨b ++ rest, hRest⟩, rest, ?_⟩
    rw [← List.drop_drop, ← hRest, List.drop_left]
  · rintro ⟨⟨tail, hTail⟩, rest, hRest⟩
    rw [← List.drop_drop, ← hTail, List.drop_left] at hRest
    exact ⟨rest, by rw [List.append_assoc, hRest, hTail]⟩

theorem left (h : HoldsAt bytes i (a ++ b)) : HoldsAt bytes i a :=
  (append_iff.mp h).1

theorem right (h : HoldsAt bytes i (a ++ b)) : HoldsAt bytes (i + a.length) b :=
  (append_iff.mp h).2

theorem cons_iff {x : UInt8} :
    HoldsAt bytes i (x :: part) ↔ bytes[i]? = some x ∧ HoldsAt bytes (i + 1) part := by
  have hSplit : x :: part = [x] ++ part := rfl
  rw [hSplit, append_iff]
  apply and_congr_left
  intro _
  rw [HoldsAt, List.prefix_iff_getElem?]
  simp

theorem getElem? (h : HoldsAt bytes i part) {k : Nat} {x : UInt8} (hx : part[k]? = some x) :
    bytes[i + k]? = some x := by
  obtain ⟨rest, hRest⟩ := h
  have hLength : k < part.length := (List.getElem?_eq_some_iff.mp hx).1
  have hGet : (part ++ rest)[k]? = some x := by rw [List.getElem?_append_left hLength, hx]
  rw [hRest, List.getElem?_drop] at hGet
  simpa using hGet

theorem length_le (h : HoldsAt bytes i part) : part.length ≤ bytes.size - i := by
  have hLength := List.IsPrefix.length_le h
  simpa using hLength

theorem stop_le (h : HoldsAt bytes i part) (hPart : part ≠ []) :
    i + part.length ≤ bytes.size := by
  have hLength := length_le h
  have hPositive := List.length_pos_iff.mpr hPart
  omega

theorem flatMap_getElem? {α : Type} {f : α → List UInt8} {width : Nat} {xs : List α}
    (hWidth : ∀ x ∈ xs, (f x).length = width) (h : HoldsAt bytes i (xs.flatMap f)) {k : Nat} {x : α}
    (hx : xs[k]? = some x) : HoldsAt bytes (i + k * width) (f x) := by
  induction xs generalizing i k with
  | nil => simp at hx
  | cons y ys ih =>
    rw [List.flatMap_cons] at h
    have hHead : (f y).length = width := hWidth y List.mem_cons_self
    cases k with
    | zero =>
      rw [List.getElem?_cons_zero, Option.some.injEq] at hx
      subst hx
      rw [Nat.zero_mul, Nat.add_zero]
      exact h.left
    | succ k =>
      rw [List.getElem?_cons_succ] at hx
      have hTail := ih (fun z hz => hWidth z (List.mem_cons_of_mem _ hz)) h.right hx
      have hPosition : i + (f y).length + k * width = i + (k + 1) * width := by
        rw [hHead, Nat.add_mul]; omega
      rwa [hPosition] at hTail

end HoldsAt

theorem length_le_flatMap {α : Type} {f : α → List UInt8} (h : ∀ x, f x ≠ []) (xs : List α) :
    xs.length ≤ (xs.flatMap f).length := by
  induction xs with
  | nil => exact Nat.le_refl 0
  | cons x xs ih =>
    have hPositive := List.length_pos_iff.mpr (h x)
    rw [List.flatMap_cons, List.length_append, List.length_cons]
    omega

namespace LittleEndian

@[simp] theorem length_ofUInt16 (w : UInt16) : (ofUInt16 w).length = 2 := rfl

@[simp] theorem length_ofUInt32 (w : UInt32) : (ofUInt32 w).length = 4 := rfl

theorem toNat_byte {n : Nat} (h : n < 0x100) : (UInt8.ofNat n).toNat = n :=
  UInt8.toNat_ofNat_of_lt h

theorem uint16At?_of_holdsAt {bytes : Bytes} {i : Nat} {w : UInt16}
    (h : HoldsAt bytes i (ofUInt16 w)) : uint16At? bytes i = some w := by
  obtain ⟨h0, h1⟩ := HoldsAt.cons_iff.mp h
  obtain ⟨h1, -⟩ := HoldsAt.cons_iff.mp h1
  have hWord := w.toNat_lt
  simp only [uint16At?, h0, h1]
  rw [toNat_byte (by omega), toNat_byte (by omega)]
  have hSum : w.toNat % 0x100 + w.toNat / 0x100 * 0x100 = w.toNat := by omega
  rw [hSum, UInt16.ofNat_toNat]

theorem uint32At?_of_holdsAt {bytes : Bytes} {i : Nat} {w : UInt32}
    (h : HoldsAt bytes i (ofUInt32 w)) : uint32At? bytes i = some w := by
  obtain ⟨h0, h1⟩ := HoldsAt.cons_iff.mp h
  obtain ⟨h1, h2⟩ := HoldsAt.cons_iff.mp h1
  obtain ⟨h2, h3⟩ := HoldsAt.cons_iff.mp h2
  obtain ⟨h3, -⟩ := HoldsAt.cons_iff.mp h3
  have hWord := w.toNat_lt
  simp only [uint32At?, h0, h1, h2, h3]
  rw [toNat_byte (by omega), toNat_byte (by omega), toNat_byte (by omega), toNat_byte (by omega)]
  have hSum : w.toNat % 0x100 + w.toNat / 0x100 % 0x100 * 0x100 +
      w.toNat / 0x10000 % 0x100 * 0x10000 + w.toNat / 0x1000000 * 0x1000000 = w.toNat := by omega
  rw [hSum, UInt32.ofNat_toNat]

theorem holdsAt_of_uint32At? {bytes : Bytes} {i : Nat} {w : UInt32}
    (h : uint32At? bytes i = some w) : HoldsAt bytes i (ofUInt32 w) := by
  rw [uint32At?] at h
  split at h
  · rename_i a b c d h0 h1 h2 h3
    have ha := a.toNat_lt
    have hb := b.toNat_lt
    have hc := c.toNat_lt
    have hd := d.toNat_lt
    have hWord : w.toNat = a.toNat + b.toNat * 0x100 + c.toNat * 0x10000 + d.toNat * 0x1000000 := by
      rw [← Option.some.inj h, UInt32.toNat_ofNat']
      omega
    have hBytes : ofUInt32 w = [a, b, c, d] := by
      have hA : w.toNat % 0x100 = a.toNat := by omega
      have hB : w.toNat / 0x100 % 0x100 = b.toNat := by omega
      have hC : w.toNat / 0x10000 % 0x100 = c.toNat := by omega
      have hD : w.toNat / 0x1000000 = d.toNat := by omega
      simp only [ofUInt32, hA, hB, hC, hD, UInt8.ofNat_toNat]
    rw [hBytes, HoldsAt.cons_iff, HoldsAt.cons_iff, HoldsAt.cons_iff, HoldsAt.cons_iff]
    exact ⟨h0, h1, h2, h3, List.nil_prefix⟩
  · cases h

theorem uint32At?_eq_some_getD {bytes : Bytes} {i : Nat} (h : i + 4 ≤ bytes.size) :
    uint32At? bytes i = some ((uint32At? bytes i).getD 0) := by
  have hIn : ∀ k < 4, ∃ byte, bytes[i + k]? = some byte := fun k hk =>
    ⟨_, Array.getElem?_eq_getElem (by omega)⟩
  obtain ⟨a, ha⟩ := hIn 0 (by decide)
  obtain ⟨b, hb⟩ := hIn 1 (by decide)
  obtain ⟨c, hc⟩ := hIn 2 (by decide)
  obtain ⟨d, hd⟩ := hIn 3 (by decide)
  rw [Nat.add_zero] at ha
  simp only [uint32At?, ha, hb, hc, hd, Option.getD_some]

theorem uint32At?_congr {a b : Bytes} {i : Nat} (h : ∀ k < i + 4, i ≤ k → a[k]? = b[k]?) :
    uint32At? a i = uint32At? b i := by
  rw [uint32At?, uint32At?, h i (by omega) (by omega), h (i + 1) (by omega) (by omega),
    h (i + 2) (by omega) (by omega), h (i + 3) (by omega) (by omega)]

end LittleEndian

end DexForge
