import DexForge.Digest.Adler32
import Mathlib.Algebra.BigOperators.Group.List.Basic
import Mathlib.Algebra.GroupWithZero.Nat
import Mathlib.Algebra.Order.Group.Nat

/-! # Adler-32 sees every changed byte

The low sum is the sum of all bytes modulo a prime above 255, so it moves with each of them.
-/
set_option autoImplicit false

namespace DexForge.Adler32

structure Sums.Reduced (s : Sums) : Prop where
  low : s.low < modulus
  high : s.high < modulus

theorem reduced_step (s : Sums) (byte : UInt8) : (s.step byte).Reduced :=
  ⟨Nat.mod_lt _ (by decide), Nat.mod_lt _ (by decide)⟩

theorem reduced_foldl {s : Sums} (h : s.Reduced) (data : List UInt8) :
    (data.foldl Sums.step s).Reduced := by
  induction data generalizing s with
  | nil => exact h
  | cons byte rest ih => exact ih (reduced_step s byte)

theorem reduced_sums (data : List UInt8) : (sums data).Reduced :=
  reduced_foldl ⟨by decide, by decide⟩ data

theorem low_foldl {s : Sums} (h : s.low < modulus) (data : List UInt8) :
    (data.foldl Sums.step s).low = (s.low + (data.map UInt8.toNat).sum) % modulus := by
  induction data generalizing s with
  | nil => exact (Nat.mod_eq_of_lt h).symm
  | cons byte rest ih =>
    rw [List.foldl_cons, ih (reduced_step s byte).low, List.map_cons, List.sum_cons]
    rw [Sums.step, Nat.mod_add_mod, Nat.add_assoc]

theorem low_sums (data : List UInt8) :
    (sums data).low = (1 + (data.map UInt8.toNat).sum) % modulus :=
  low_foldl (by decide) data

theorem sums_eq_of_digest_eq {a b : List UInt8} (h : digest a = digest b) :
    (sums a).low = (sums b).low ∧ (sums a).high = (sums b).high := by
  obtain ⟨hLow, hHigh⟩ := reduced_sums a
  obtain ⟨hLow', hHigh'⟩ := reduced_sums b
  rw [modulus] at hLow hHigh hLow' hHigh'
  have hWord := congrArg UInt32.toNat h
  rw [digest, digest, UInt32.toNat_ofNat', UInt32.toNat_ofNat'] at hWord
  omega

theorem sum_set {data : List UInt8} {i : Nat} (hi : i < data.length) (byte : UInt8) :
    ((data.set i byte).map UInt8.toNat).sum + data[i].toNat =
      (data.map UInt8.toNat).sum + byte.toNat := by
  induction data generalizing i with
  | nil => cases hi
  | cons first rest ih =>
    cases i with
    | zero =>
      simp only [List.set_cons_zero, List.map_cons, List.sum_cons, List.getElem_cons_zero]
      omega
    | succ i =>
      have hRest := ih (Nat.lt_of_succ_lt_succ hi)
      simp only [List.set_cons_succ, List.map_cons, List.sum_cons, List.getElem_cons_succ]
      omega

theorem eq_of_digest_set {data : List UInt8} {i : Nat} (hi : i < data.length) {byte : UInt8}
    (h : digest (data.set i byte) = digest data) : byte = data[i] := by
  have hLow := (sums_eq_of_digest_eq h).1
  rw [low_sums, low_sums, modulus] at hLow
  have hSum := sum_set hi byte
  have hOld := data[i].toNat_lt
  have hNew := byte.toNat_lt
  -- the two byte sums differ by less than the modulus
  apply UInt8.toNat.inj
  omega

end DexForge.Adler32
