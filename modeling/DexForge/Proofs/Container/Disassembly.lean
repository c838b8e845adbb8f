import DexForge.Container.Basic
import DexForge.Proofs.Instruction.Codec

/-! # Disassembling what was assembled -/
set_option autoImplicit false

namespace DexForge.CodeItem

def positioned (pc : Nat) : List Instruction → List (Nat × Instruction)
  | [] => []
  | i :: rest => (pc, i) :: positioned (pc + i.size) rest

theorem map_snd_positioned (pc : Nat) (is : List Instruction) :
    (positioned pc is).map Prod.snd = is := by
  induction is generalizing pc with
  | nil => rfl
  | cons i is ih => rw [positioned, List.map_cons, ih]

theorem disassembleFrom_nil (codeOffset : UInt32) (pc : Nat) (read : Array (Nat × Instruction)) :
    disassembleFrom codeOffset pc [] read = .ok read := by
  rw [disassembleFrom]

theorem disassembleFrom_encode (codeOffset : UInt32) (pc : Nat) {i : Instruction}
    (h : i.WellFormed) (units : List UInt16) (read : Array (Nat × Instruction)) :
    disassembleFrom codeOffset pc (i.encode ++ units) read =
      disassembleFrom codeOffset (pc + i.size) units (read.push (pc, i)) := by
  have hDecode := Instruction.decode?_encode h units
  have hLength := Instruction.length_encode i
  have hSize := Instruction.size_pos i
  cases hUnits : i.encode with
  | nil => simp [hUnits] at hLength; omega
  | cons unit rest =>
    rw [hUnits, List.cons_append] at hDecode
    rw [hUnits, List.length_cons] at hLength
    have hRest : (rest ++ units).drop (i.size - 1) = units := List.drop_left' (by omega)
    rw [List.cons_append, disassembleFrom]
    simp only [hDecode, hRest]

theorem disassembleFrom_flatMap (codeOffset : UInt32) (pc : Nat) {is : List Instruction}
    (h : ∀ i ∈ is, i.WellFormed) (read : Array (Nat × Instruction)) :
    disassembleFrom codeOffset pc (is.flatMap Instruction.encode) read =
      .ok (read ++ (positioned pc is).toArray) := by
  induction is generalizing pc read with
  | nil => simp [disassembleFrom_nil, positioned]
  | cons i is ih =>
    have hTail := fun j hj => h j (List.mem_cons_of_mem _ hj)
    rw [List.flatMap_cons, disassembleFrom_encode _ _ (h i List.mem_cons_self), ih _ hTail]
    simp [positioned]

theorem instructions_of_units {code : CodeItem} {is : List Instruction}
    (hUnits : code.units = is.flatMap Instruction.encode) (h : ∀ i ∈ is, i.WellFormed) :
    code.instructions = .ok (positioned 0 is).toArray := by
  rw [instructions, hUnits, disassembleFrom_flatMap _ _ h]
  simp

inductive Decodes : List UInt16 → List Instruction → Prop where
  | nil : Decodes [] []
  | cons {units : List UInt16} {i : Instruction} {is : List Instruction}
    (hFirst : Instruction.decode? units = some i) (hRest : Decodes (units.drop i.size) is) :
    Decodes units (i :: is)

theorem drop_size (i : Instruction) (unit : UInt16) (rest : List UInt16) :
    (unit :: rest).drop i.size = rest.drop (i.size - 1) := by
  obtain ⟨n, hn⟩ := Nat.exists_eq_succ_of_ne_zero (Nat.ne_of_gt i.size_pos)
  rw [hn, List.drop_succ_cons, Nat.succ_sub_one]

theorem disassembleFrom_eq_ok_iff {codeOffset : UInt32} {pc : Nat} {units : List UInt16}
    {read result : Array (Nat × Instruction)} :
    disassembleFrom codeOffset pc units read = .ok result ↔
      ∃ is, Decodes units is ∧ result = read ++ (positioned pc is).toArray := by
  fun_induction disassembleFrom codeOffset pc units read with
  | case1 pc read =>
    constructor
    · intro h
      cases h
      exact ⟨[], .nil, by simp [positioned]⟩
    · rintro ⟨is, hDecodes, rfl⟩
      cases hDecodes with
      | nil => simp [positioned]
      | cons hFirst _ => cases hFirst
  | case2 pc read unit rest hNone =>
    constructor
    · intro h
      cases h
    · rintro ⟨is, hDecodes, -⟩
      cases hDecodes with
      | cons hFirst _ =>
        rw [hNone] at hFirst
        cases hFirst
  | case3 pc read unit rest i hSome ih =>
    rw [ih, ← drop_size i unit rest]
    constructor
    · rintro ⟨is, hDecodes, rfl⟩
      exact ⟨i :: is, .cons hSome hDecodes, by simp [positioned]⟩
    · rintro ⟨is, hDecodes, rfl⟩
      cases hDecodes with
      | cons hFirst hRest =>
        obtain rfl := Option.some.inj (hSome.symm.trans hFirst)
        exact ⟨_, hRest, by simp [positioned]⟩

theorem instructions_eq_ok_iff {code : CodeItem} {result : Array (Nat × Instruction)} :
    code.instructions = .ok result ↔
      ∃ is, Decodes code.units is ∧ result = (positioned 0 is).toArray := by
  rw [instructions, disassembleFrom_eq_ok_iff]
  simp

end DexForge.CodeItem
