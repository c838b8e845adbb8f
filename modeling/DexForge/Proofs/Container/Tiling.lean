import DexForge.Proofs.Container.Disassembly
import DexForge.Proofs.Instruction.Decoding
import Mathlib.Algebra.GroupWithZero.Nat
import Mathlib.Algebra.Order.Group.Nat
import Mathlib.Data.List.Chain

/-! # Instructions tile their stream

Each instruction is decoded where the one in front of it ends. Disassembly either comes to the end of
the units in this way, and never past it, or it names the first position that it comes to at which
no instruction stands.
-/
set_option autoImplicit false

namespace DexForge.CodeItem

/-- The instructions in front of `stop`, each with its position: the first stands at 0, each of the
others where its neighbour ends, and the last ends at `stop`. -/
structure Tiles (units : List UInt16) (tiles : List (Nat × Instruction)) (stop : Nat) : Prop where
  first : ∀ tile ∈ tiles.head?, tile.1 = 0
  next : tiles.IsChain fun tile behind => behind.1 = tile.1 + tile.2.size
  last : stop = tiles.getLast?.elim 0 fun tile => tile.1 + tile.2.size
  inside : stop ≤ units.length
  decoded : ∀ tile ∈ tiles, Instruction.decode? (units.drop tile.1) = some tile.2

theorem tiles_nil (units : List UInt16) : Tiles units [] 0 where
  first := by simp
  next := .nil
  last := rfl
  inside := Nat.zero_le _
  decoded := by simp

theorem Tiles.snoc {units : List UInt16} {tiles : List (Nat × Instruction)} {pc : Nat}
    {i : Instruction} (h : Tiles units tiles pc)
    (hDecode : Instruction.decode? (units.drop pc) = some i) :
    Tiles units (tiles ++ [(pc, i)]) (pc + i.size) where
  first := by
    rw [List.head?_append]
    cases tiles with
    | nil =>
      intro tile hTile
      cases hTile
      exact h.last
    | cons tile tiles => exact h.first
  next := by
    refine List.isChain_append.mpr ⟨h.next, .singleton _, ?_⟩
    intro tile hTile behind hBehind
    cases hBehind
    have hLast := h.last
    rw [Option.mem_def.mp hTile] at hLast
    exact hLast
  last := by
    rw [List.getLast?_append]
    rfl
  -- the size of an instruction is the number of units that the decoder took
  inside := by
    obtain ⟨n, hLength, rfl, -⟩ := Instruction.exists_takes_of_decode? hDecode
    rw [List.length_drop] at hLength
    have hInside := h.inside
    omega
  decoded := by
    intro tile hTile
    rcases List.mem_append.mp hTile with hTile | hTile
    · exact h.decoded tile hTile
    · cases List.mem_singleton.mp hTile
      exact hDecode

/-- What was read tiles the units in front of `pc`; so does what is read in the end, up to the end of
the units or up to a position at which nothing can be decoded. -/
theorem disassembleFrom_tiles (codeOffset : UInt32) {units : List UInt16} {pc : Nat}
    {read : Array (Nat × Instruction)} (hRead : Tiles units read.toList pc) :
    (∃ tiles : List (Nat × Instruction), Tiles units tiles units.length ∧
      disassembleFrom codeOffset pc (units.drop pc) read = .ok tiles.toArray) ∨
    ∃ (passed : List (Nat × Instruction)) (stop : Nat) (unit : UInt16),
      Tiles units passed stop ∧ Instruction.decode? (units.drop stop) = none ∧
      units[stop]? = some unit ∧ disassembleFrom codeOffset pc (units.drop pc) read =
        .error (.badInstruction codeOffset stop unit) := by
  generalize hRest : units.drop pc = rest
  fun_induction disassembleFrom codeOffset pc rest read with
  | case1 pc read =>
    have hEnd : units.length ≤ pc := List.drop_eq_nil_iff.mp hRest
    have hStop : pc = units.length := Nat.le_antisymm hRead.inside hEnd
    exact .inl ⟨read.toList, hStop ▸ hRead, rfl⟩
  | case2 pc read unit rest hNone =>
    have hUnit : units[pc]? = some unit := by
      rw [← List.head?_drop, hRest]
      rfl
    exact .inr ⟨read.toList, pc, unit, hRead, hRest ▸ hNone, hUnit, rfl⟩
  | case3 pc read unit rest i hSome ih =>
    apply ih
    · rw [Array.toList_push]
      exact hRead.snoc (hRest ▸ hSome)
    · rw [← List.drop_drop, hRest, drop_size]

theorem positioned_eq_mapIdx (pc : Nat) (is : List Instruction) :
    positioned pc is = is.mapIdx fun k i => (pc + ((is.take k).map Instruction.size).sum, i) := by
  induction is generalizing pc with
  | nil => rfl
  | cons i is ih =>
    rw [positioned, ih, List.mapIdx_cons]
    simp [Nat.add_assoc]

/-- Disassembly of any units tiles them or names the first position that it cannot decode, with the
unit that stands there; encoded instructions come back with the units in front of each counted. -/
theorem disassembly_tiles (code : CodeItem) :
    ((∃ tiles : List (Nat × Instruction), code.instructions = .ok tiles.toArray ∧
        Tiles code.units tiles code.units.length) ∨
      ∃ (passed : List (Nat × Instruction)) (pc : Nat) (unit : UInt16),
        code.instructions = .error (.badInstruction code.offset pc unit) ∧
        Tiles code.units passed pc ∧ Instruction.decode? (code.units.drop pc) = none ∧
        code.units[pc]? = some unit) ∧
    ∀ is : List Instruction, (∀ i ∈ is, i.WellFormed) →
      code.units = is.flatMap Instruction.encode →
      code.instructions =
        .ok (is.mapIdx fun k i => (((is.take k).map Instruction.size).sum, i)).toArray := by
  constructor
  · have hStart : Tiles code.units (#[] : Array (Nat × Instruction)).toList 0 := tiles_nil _
    obtain ⟨tiles, hTiles, hRead⟩ | ⟨passed, pc, unit, hTiles, hNone, hUnit, hRead⟩ :=
      disassembleFrom_tiles code.offset hStart
    · exact .inl ⟨tiles, hRead, hTiles⟩
    · exact .inr ⟨passed, pc, unit, hRead, hTiles, hNone, hUnit⟩
  · intro is hFits hUnits
    rw [instructions_of_units hUnits hFits, positioned_eq_mapIdx]
    simp

/-- Instructions of one, three, three and one units. -/
theorem disassembly_tiles_call :
    (∀ i ∈ [Instruction.const4 1 (-8), .invoke .super 0xffff [15, 0, 7, 1, 14],
      .constStringJumbo 255 0x10000, .returnVoid], i.WellFormed) ∧
    (⟨0, 16, 5, 5, 0, 0, [0x8112, 0x5e6f, 0xffff, 0x170f, 0xff1b, 0, 1, 0x0e]⟩ : CodeItem).instructions =
      .ok #[(0, .const4 1 (-8)), (1, .invoke .super 0xffff [15, 0, 7, 1, 14]),
        (4, .constStringJumbo 255 0x10000), (7, .returnVoid)] := by
  have hFits : ∀ i ∈ [Instruction.const4 1 (-8), .invoke .super 0xffff [15, 0, 7, 1, 14],
      .constStringJumbo 255 0x10000, .returnVoid], i.WellFormed := by
    simp only [List.forall_mem_cons]
    exact ⟨⟨by decide, by decide, by decide⟩, ⟨by decide, by simp⟩, trivial, trivial, by simp⟩
  exact ⟨hFits, (disassembly_tiles _).2 _ hFits (by decide)⟩

/-- A unit is missing at the end. -/
example : (⟨0, 1, 1, 0, 0, 0, [0x0e, 0x1a]⟩ : CodeItem).instructions =
    .error (.badInstruction 0 1 0x1a) := by
  cbv

end DexForge.CodeItem
