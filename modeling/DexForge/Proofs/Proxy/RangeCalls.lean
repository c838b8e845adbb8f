import DexForge.Proofs.Proxy.Narrowest

/-! # The registers of range calls

A range call names its first register and how many follow. Register numbers have sixteen bits.
Counting that is checked stops behind 65535; counting that is not goes on with 0, so the call takes
its arguments for a run also where the numbers start again. The arguments are the numbers from the
first one on exactly if these fit below 65536, which fails as soon as something comes after register
65535.
-/
set_option autoImplicit false

namespace DexForge

namespace Lowering

variable {arithmetic : Arithmetic} {next : UInt16} {args : List UInt16}

/-- However the registers are counted, each is the one in front of it plus one, in sixteen bits. -/
theorem eq_map_of_isRun (h : isRun arithmetic next args = .ok true) :
    args = (List.range args.length).map fun i => next + UInt16.ofNat i := by
  induction args generalizing next with
  | nil => rfl
  | cons reg rest ih =>
    rw [isRun] at h
    split at h
    · cases h
    next after hAfter =>
    split at h
    · next hSame =>
      obtain rfl := Arithmetic.eq_of_keep hAfter
      have hRest : rest = (List.range rest.length).map fun i => next + UInt16.ofNat (i + 1) := by
        refine (ih h).trans (List.map_congr_left fun i _ => ?_)
        rw [UInt16.ofNat_add, UInt16.add_comm (UInt16.ofNat i), ← UInt16.add_assoc]
        rfl
      rw [List.length_cons, List.range_succ_eq_map, List.map_cons, List.map_map]
      exact congrArg₂ List.cons (hSame.trans (UInt16.add_zero next).symm) hRest
    · cases h

theorem toNat_of_isRun (h : isRun arithmetic next args = .ok true) :
    args.map UInt16.toNat = (List.range args.length).map fun i => (next.toNat + i) % 65536 := by
  have hCounted : ∀ i ∈ List.range args.length,
      (next + UInt16.ofNat i).toNat = (next.toNat + i) % 65536 := by
    intro i _
    rw [UInt16.toNat_add, UInt16.toNat_ofNat', Nat.add_mod_mod]
  calc
    args.map UInt16.toNat
        = ((List.range args.length).map fun i => next + UInt16.ofNat i).map UInt16.toNat :=
      congrArg (List.map UInt16.toNat) (eq_map_of_isRun h)
    _ = (List.range args.length).map fun i => (next.toNat + i) % 65536 := by
      rw [List.map_map]
      exact List.map_congr_left hCounted

theorem toNat_getElem_of_isRun (h : isRun arithmetic next args = .ok true) (i : Nat)
    (hi : i < args.length) : args[i].toNat = (next.toNat + i) % 65536 := by
  have hGet := congrArg (fun numbers => numbers[i]?) (toNat_of_isRun h)
  simpa [hi] using hGet

theorem range'_of_fits (h : isRun arithmetic next args = .ok true)
    (hFits : next.toNat + args.length ≤ 65536) :
    args.map UInt16.toNat = List.range' next.toNat args.length := by
  rw [toNat_of_isRun h, List.range'_eq_map_range]
  apply List.map_congr_left
  intro i hi
  rw [List.mem_range] at hi
  exact Nat.mod_eq_of_lt (by omega)

theorem toNat_getElem_of_range' {first : Nat}
    (h : args.map UInt16.toNat = List.range' first args.length) (i : Nat) (hi : i < args.length) :
    args[i].toNat = first + i := by
  have hGet := congrArg (fun numbers => numbers[i]?) h
  simpa [hi] using hGet

theorem fits_of_range' (h : args.map UInt16.toNat = List.range' next.toNat args.length) :
    next.toNat + args.length ≤ 65536 := by
  have hFirst := next.toNat_lt
  by_cases hEmpty : args.length = 0
  · omega
  · have hLast := toNat_getElem_of_range' h (args.length - 1) (by omega)
    have hBound := args[args.length - 1].toNat_lt
    omega

theorem last_not_mem_of_range' {first : Nat}
    (h : args.map UInt16.toNat = List.range' first args.length) : 65535 ∉ args.dropLast := by
  intro hMem
  obtain ⟨i, hi, hAt⟩ := List.mem_iff_getElem.mp hMem
  rw [List.length_dropLast] at hi
  rw [List.getElem_dropLast] at hAt
  have hSelf := toNat_getElem_of_range' h i (by omega)
  have hNext := toNat_getElem_of_range' h (i + 1) (by omega)
  have hBound := args[i + 1].toNat_lt
  have hTop : (65535 : UInt16).toNat = 65535 := rfl
  rw [hAt, hTop] at hSelf
  omega

theorem range'_iff_fits (h : isRun arithmetic next args = .ok true) :
    args.map UInt16.toNat = List.range' next.toNat args.length ↔
      next.toNat + args.length ≤ 65536 :=
  ⟨fits_of_range', range'_of_fits h⟩

theorem range'_iff_last_not_mem (h : isRun arithmetic next args = .ok true) :
    args.map UInt16.toNat = List.range' next.toNat args.length ↔ 65535 ∉ args.dropLast := by
  refine ⟨last_not_mem_of_range', fun hLast => range'_of_fits h ?_⟩
  by_contra hOver
  -- the count passes the last register in front of the end
  have hFirst := next.toNat_lt
  have hInside : 65535 - next.toNat < args.dropLast.length := by
    rw [List.length_dropLast]
    omega
  have hNumber := toNat_getElem_of_isRun h (65535 - next.toNat)
    (Nat.lt_of_lt_of_le hInside (List.length_dropLast ▸ Nat.sub_le _ 1))
  rw [Nat.add_sub_cancel' (Nat.le_of_lt_succ hFirst)] at hNumber
  have hLastArg : args.dropLast[65535 - next.toNat] = 65535 := by
    rw [List.getElem_dropLast]
    exact UInt16.toNat.inj hNumber
  exact hLast (List.mem_of_getElem hLastArg)

theorem range'_of_checked (h : isRun .checked next args = .ok true) :
    args.map UInt16.toNat = List.range' next.toNat args.length :=
  (isRun_iff (last_not_mem_of_isRun h)).mp h

end Lowering

namespace Operation

open DexForge.Except Lowering

variable {arithmetic : Arithmetic} {tables : Tables} {kind kind' : InvokeKind}
  {slot : Slot .method} {args : List UInt16} {method first : UInt16} {count : UInt8}

theorem lower_eq_invokeRange (h : lowerUnder arithmetic tables (.invoke kind slot args) =
      .ok (.invokeRange kind' method first count)) :
    count.toNat = args.length ∧ isRun arithmetic first args = .ok true := by
  obtain ⟨index, -, h⟩ := bind_eq_ok_iff.mp h
  obtain ⟨-, -, hNarrow⟩ | ⟨hLength, hRun, hRange⟩ := invoke_eq_ok h
  · cases hNarrow
  · cases hRange
    exact ⟨UInt8.toNat_ofNat_of_lt (Nat.lt_succ_of_le hLength), hRun⟩

/-- The arguments of a range call are counted from its first register in sixteen bits. They are the
numbers from there on exactly if these fit, and exactly if nothing comes after register 65535; where
the count is checked, they always are. -/
theorem lower_range_counts (h : lowerUnder arithmetic tables (.invoke kind slot args) =
      .ok (.invokeRange kind' method first count)) :
    args.map UInt16.toNat = (List.range count.toNat).map (fun i => (first.toNat + i) % 65536) ∧
    (args.map UInt16.toNat = List.range' first.toNat count.toNat ↔
      first.toNat + count.toNat ≤ 65536) ∧
    (args.map UInt16.toNat = List.range' first.toNat count.toNat ↔ 65535 ∉ args.dropLast) ∧
    (arithmetic = .checked → args.map UInt16.toNat = List.range' first.toNat count.toNat) := by
  obtain ⟨hCount, hRun⟩ := lower_eq_invokeRange h
  rw [hCount]
  refine ⟨toNat_of_isRun hRun, range'_iff_fits hRun, range'_iff_last_not_mem hRun, ?_⟩
  rintro rfl
  exact range'_of_checked hRun

theorem exists_method : ∃ (slot : Slot .method) (tables : Tables) (method : UInt16),
    tables.method slot = .ok method := by
  obtain ⟨slot, tables, hFinish, hCovers⟩ := exists_boxLong
  obtain ⟨action, hAction⟩ :
      ∃ action, (Operation.invoke .static slot []).Agrees (Indexed tables) action := by
    apply exists_indexed hFinish
    rintro _ _ ⟨⟩
    exact hCovers
  cases hAction with
  | invoke hIndex =>
    obtain ⟨method, hMethod, -⟩ := Except.map_eq_ok_iff.mp hIndex
    exact ⟨slot, tables, method, hMethod⟩

theorem lowerUnder_invoke (h : tables.method slot = .ok method) (kind : InvokeKind)
    (args : List UInt16) :
    lowerUnder arithmetic tables (.invoke kind slot args) =
      Lowering.invoke arithmetic kind method args := by
  rw [lowerUnder, h]
  rfl

/-- The last two registers are the numbers 65534 and 65535. -/
theorem lower_range_counts_top : ∃ (slot : Slot .method) (tables : Tables) (method : UInt16),
    lowerUnder .wrapping tables (.invoke .static slot [65534, 65535]) =
      .ok (.invokeRange .static method 65534 2) ∧
    [65534, 65535].map UInt16.toNat = List.range' 65534 2 := by
  obtain ⟨slot, tables, method, hMethod⟩ := exists_method
  have hLower : lowerUnder .wrapping tables (.invoke .static slot [65534, 65535]) =
      .ok (.invokeRange .static method 65534 2) := (lowerUnder_invoke hMethod _ _).trans rfl
  obtain ⟨-, hFits, -⟩ := lower_range_counts hLower
  exact ⟨slot, tables, method, hLower, hFits.mpr (by decide)⟩

/-- Registers 65535 and 0 are not refused: unchecked counting takes them for a run, although the two
numbers are not, and checked counting stops. -/
theorem lower_range_wraps : ∃ (slot : Slot .method) (tables : Tables) (method : UInt16),
    lowerUnder .wrapping tables (.invoke .static slot [65535, 0]) =
      .ok (.invokeRange .static method 65535 2) ∧
    [65535, 0].map UInt16.toNat ≠ List.range' 65535 2 ∧ ¬65535 + 2 ≤ 65536 ∧
    lower tables (.invoke .static slot [65535, 0]) = .error .arithmeticOverflow := by
  obtain ⟨slot, tables, method, hMethod⟩ := exists_method
  exact ⟨slot, tables, method, (lowerUnder_invoke hMethod _ _).trans rfl, by decide, by decide,
    (lowerUnder_invoke hMethod _ _).trans rfl⟩

end Operation

end DexForge
