import DexForge.Proofs.Instruction.Codec
import DexForge.Proofs.Pool.History
import DexForge.Proofs.Proxy.Resolution

/-! # Lowering keeps the meaning and takes the fewest units

An operation on slots of finished pools is refused only when no instruction has room for its
registers. Otherwise it becomes an instruction that does the same on the final index of its entry,
and no instruction with the same effect is shorter.
-/
set_option autoImplicit false

namespace DexForge

namespace Operation

variable {ρ σ : TableName → Type}

/-- The registers are out of reach: two operands of four bits, or arguments that are neither five low
registers nor a run of at most 255. -/
def OutOfReach : Operation ρ → Prop
  | newArray a b _ | igetObject a b _ | iputObject a b _ => 16 ≤ a.toNat ∨ 16 ≤ b.toNat
  | invoke _ _ args =>
    ¬(args.length ≤ 5 ∧ ∀ arg ∈ args, arg.toNat < 16) ∧
      ¬(args.length ≤ 255 ∧ Lowering.Consecutive args)
  | _ => False

theorem outOfReach_iff {op : Operation ρ} (h : 65535 ∉ op.arguments) :
    op.OutOfReach ↔ ¬op.Encodable := by
  have hSmall : ∀ reg : UInt8, 16 ≤ reg.toNat ↔ ¬reg < 16 := fun reg => Nat.not_lt.symm
  cases op with
  | newArray a b _ | igetObject a b _ | iputObject a b _ =>
    rw [OutOfReach, Encodable, hSmall, hSmall, not_and_or]
  | invoke kind x args =>
    rw [OutOfReach, Encodable, and_iff_left (show 65535 ∉ args from h), not_or]
    rfl
  | _ => simp only [OutOfReach, Encodable, not_true_eq_false]

/-- The fewest units that an instruction for the operation has. -/
def leastSize : Operation (fun _ => UInt32) → Nat
  | const dst value =>
    if dst < 16 ∧ -8 ≤ value.toInt ∧ value.toInt ≤ 7 then 1
    else if -32768 ≤ value.toInt ∧ value.toInt ≤ 32767 then 2
    else 3
  | constString _ string => if string < 65536 then 2 else 3
  | invoke _ _ _ => 3
  | moveObject _ _ | checkCast _ _ | newArray _ _ _ | agetObject _ _ _ | aputObject _ _ _
  | igetObject _ _ _ | iputObject _ _ _ | sgetObject _ _ => 2
  | _ => 1

end Operation

namespace Instruction

def operation? (i : Instruction) : Option (Operation fun _ => UInt32) :=
  i.resolve? fun _ index => some index

theorem leastSize_le {i : Instruction} (hFits : i.WellFormed) {action : Operation fun _ => UInt32}
    (h : i.operation? = some action) : action.leastSize ≤ i.size := by
  cases i with
  | const4 dst value =>
    cases h
    obtain ⟨hDst, hLow, hHigh⟩ := hFits
    have hRange : dst < 16 ∧ -8 ≤ value.toInt32.toInt ∧ value.toInt32.toInt ≤ 7 := by
      rw [Int8.toInt_toInt32]
      exact ⟨hDst, hLow, hHigh⟩
    exact Nat.le_of_eq (if_pos hRange)
  | const16 dst value =>
    cases h
    have hRange : -32768 ≤ value.toInt32.toInt ∧ value.toInt32.toInt ≤ 32767 := by
      rw [Int16.toInt_toInt32]
      exact ⟨value.le_toInt, Int.le_of_lt_add_one value.toInt_lt⟩
    rw [Operation.leastSize, if_pos hRange]
    split
    · exact Nat.le_succ 1
    · exact Nat.le_refl 2
  | const32 dst value =>
    cases h
    rw [Operation.leastSize]
    split
    · exact Nat.le_add_left 1 2
    · split
      · exact Nat.le_succ 2
      · exact Nat.le_refl 3
  | constString dst string =>
    cases h
    have hSmall : string.toUInt32 < 65536 := string.toNat_lt
    exact Nat.le_of_eq (if_pos hSmall)
  | constStringJumbo dst string =>
    cases h
    rw [Operation.leastSize]
    split
    · exact Nat.le_succ 2
    · exact Nat.le_refl 3
  | moveFrom16 _ _ | moveWideFrom16 _ _ => cases h
  | invoke _ _ _ | invokeRange _ _ _ _ =>
    rw [operation?, resolve?] at h
    obtain ⟨_, -, h⟩ := Option.bind_eq_some_iff.mp h
    obtain ⟨_, -, h⟩ := Option.bind_eq_some_iff.mp h
    cases h
    exact Nat.le_refl _
  | _ =>
    cases h
    exact Nat.le_refl _

theorem exists_operation? {σ : TableName → Type} {lookup : (t : TableName) → UInt32 → Option (σ t)}
    {i : Instruction} {action : Operation σ} (h : i.resolve? lookup = some action) :
    ∃ indexed, i.operation? = some indexed ∧
      indexed.Agrees (fun t index x => lookup t index = some x) action := by
  cases i with
  | moveFrom16 _ _ | moveWideFrom16 _ _ => cases h
  | constString _ _ | constStringJumbo _ _ | checkCast _ _ | newArray _ _ _ | igetObject _ _ _
  | iputObject _ _ _ | sgetObject _ _ =>
    obtain ⟨x, hx, rfl⟩ := Option.map_eq_some_iff.mp h
    exact ⟨_, rfl, by constructor; exact hx⟩
  | invoke _ method _ | invokeRange _ method _ _ =>
    obtain ⟨x, hx, h⟩ := Option.bind_eq_some_iff.mp h
    obtain ⟨regs, hRegs, h⟩ := Option.bind_eq_some_iff.mp h
    cases h
    refine ⟨.invoke _ method.toUInt32 regs, ?_, .invoke hx⟩
    rw [operation?, resolve?, hRegs]
    rfl
  | _ =>
    cases h
    exact ⟨_, rfl, by constructor⟩

end Instruction

namespace Operation

open DexForge.Except Lowering

variable {ρ σ : TableName → Type} {arithmetic : Arithmetic} {tables : Tables}

theorem exists_agrees {R : ∀ t, ρ t → σ t → Prop} {op : Operation ρ}
    (h : ∀ t x, op.reference? = some ⟨t, x⟩ → ∃ y, R t x y) : ∃ action, op.Agrees R action := by
  cases op with
  | constString _ x | checkCast _ x | newArray _ _ x | igetObject _ _ x | iputObject _ _ x
  | sgetObject _ x | invoke _ x _ =>
    obtain ⟨y, hy⟩ := h _ x rfl
    exact ⟨_, by constructor; exact hy⟩
  | _ => exact ⟨_, by constructor⟩

theorem encodable_of_lower {op : Operation Slot} {i : Instruction}
    (h : op.lowerUnder arithmetic tables = .ok i) (hLast : 65535 ∉ op.arguments) :
    op.Encodable := by
  cases becomes_of_lower h with
  | newArray hFirst hSecond _ | igetObject hFirst hSecond _ | iputObject hFirst hSecond _ =>
    exact ⟨hFirst, hSecond⟩
  | invoke _ hInvoke =>
    obtain ⟨hLength, hArgs, -⟩ | ⟨hLength, hRun, -⟩ := invoke_eq_ok hInvoke
    · exact Or.inl ⟨hLength, hArgs⟩
    · exact Or.inr ⟨hLength, (isRun_headD_iff hLast).mp hRun, hLast⟩
  | _ => trivial

def Indexed (tables : Tables) (t : TableName) (slot : Slot t) (index : UInt32) : Prop :=
  tables.index slot = .ok index

theorem exists_indexed {p : Pools} (hFinish : p.finish = .ok tables) {op : Operation Slot}
    (hSlots : ∀ t slot, op.reference? = some ⟨t, slot⟩ → p.Covers slot) :
    ∃ action, op.Agrees (Indexed tables) action := by
  obtain ⟨r, hOrders, rfl, -⟩ := Pools.finish_eq_ok hFinish
  apply exists_agrees
  intro t slot hSlot
  obtain ⟨j, hj⟩ := hOrders.exists_place (hSlots t slot hSlot)
  exact ⟨_, Ranking.index_of_place hj⟩

theorem exists_lower_indexed {op : Operation Slot} {action : Operation fun _ => UInt32}
    (h : op.Agrees (Indexed tables) action) (hEncodable : op.Encodable) :
    ∃ i, op.lowerUnder arithmetic tables = .ok i ∧ i.operation? = some action := by
  apply exists_lower _ hEncodable
  exact h.imp fun _ _ index hIndex => ⟨index, hIndex, rfl⟩

theorem operation?_of_lower {op : Operation Slot} {action : Operation fun _ => UInt32}
    (h : op.Agrees (Indexed tables) action) {i : Instruction}
    (hLower : op.lowerUnder arithmetic tables = .ok i) (hLast : 65535 ∉ op.arguments) :
    i.operation? = some action := by
  obtain ⟨j, hLower', hOperation⟩ : ∃ j, op.lowerUnder arithmetic tables = .ok j ∧
      j.operation? = some action := exists_lower_indexed h (encodable_of_lower hLower hLast)
  rw [hLower', Except.ok.injEq] at hLower
  rwa [hLower] at hOperation

/-- An operation on slots that have an index is refused for its registers only. -/
theorem lower_eq_error_iff {op : Operation Slot} {action : Operation fun _ => UInt32}
    (h : op.Agrees (Indexed tables) action) (hLast : 65535 ∉ op.arguments) :
    (∃ e, op.lowerUnder arithmetic tables = .error e) ↔ ¬op.Encodable := by
  constructor
  · rintro ⟨e, hError⟩ hEncodable
    obtain ⟨i, hLower, -⟩ := exists_lower_indexed h hEncodable
    rw [hError] at hLower
    cases hLower
  · intro hOut
    cases hLower : op.lowerUnder arithmetic tables with
    | error e => exact ⟨e, rfl⟩
    | ok i => exact absurd (encodable_of_lower hLower hLast) hOut

theorem size_const (dst : UInt8) (value : Int32) :
    (Lowering.const dst value).size = leastSize (.const dst value) := by
  simp only [Lowering.const, leastSize]
  split
  · rfl
  · split <;> rfl

theorem size_constString (dst : UInt8) (string : UInt32) :
    (Lowering.constString dst string).size = leastSize (.constString dst string) := by
  rw [Lowering.constString, leastSize]
  split <;> rfl

theorem size_of_lower {op : Operation Slot} {action : Operation fun _ => UInt32} {i : Instruction}
    (h : op.Agrees (Indexed tables) action) (hLower : op.lowerUnder arithmetic tables = .ok i) :
    i.size = action.leastSize := by
  cases becomes_of_lower hLower with
  | const dst value =>
    cases h
    exact size_const dst value
  | constString hString =>
    cases h with
    | constString hIndex =>
      obtain rfl := Except.ok.inj (hString.symm.trans hIndex)
      exact size_constString _ _
  | invoke _ hInvoke =>
    cases h
    obtain ⟨-, -, rfl⟩ | ⟨-, -, rfl⟩ := invoke_eq_ok hInvoke
    · rfl
    · rfl
  | _ =>
    cases h
    rfl

theorem leastSize_congr {Q : TableName → UInt32 → UInt32 → Prop}
    (hStrings : ∀ j j', Q .string j j' → j = j') {a b : Operation fun _ => UInt32}
    (h : a.Agrees Q b) : a.leastSize = b.leastSize := by
  cases h with
  | constString hQ => rw [leastSize, leastSize, hStrings _ _ hQ]
  | _ => rfl

end Operation

theorem Tables.string?_injective {p : Pools} {tables : Tables} (hFinish : p.finish = .ok tables)
    {j j' : UInt32} {text : String} (h : tables.string? j = some text)
    (h' : tables.string? j' = some text) : j = j' := by
  obtain ⟨r, hOrders, rfl, -⟩ := Pools.finish_eq_ok hFinish
  exact UInt32.toNat.inj (hOrders.contents_injective (t := .string) h h')

/-- Instructions that do the same on the texts of finished tables have room for the same units. -/
theorem Instruction.leastSize_eq {p : Pools} {tables : Tables} (hFinish : p.finish = .ok tables)
    {i k : Instruction} {effect : Operation Contents}
    (hi : i.resolve? tables.contents? = some effect)
    (hk : k.resolve? tables.contents? = some effect) :
    ∃ a b, i.operation? = some a ∧ k.operation? = some b ∧ a.leastSize = b.leastSize := by
  obtain ⟨a, ha, hAgrees⟩ := exists_operation? hi
  obtain ⟨b, hb, hAgrees'⟩ := exists_operation? hk
  refine ⟨a, b, ha, hb, Operation.leastSize_congr ?_ (hAgrees.join hAgrees' fun t j j' x hj hj' =>
    (⟨x, hj, hj'⟩ : ∃ x, tables.contents? t j = some x ∧ tables.contents? t j' = some x))⟩
  rintro j j' ⟨text, hText, hText'⟩
  exact Tables.string?_injective hFinish hText hText'

namespace Operation

open Lowering

/-- The instruction does what the operation says, on the index of its entry; it is read back from its
units, and no instruction does the same with fewer. -/
structure LoweredTo (tables : Tables) (op : Operation Slot) (i : Instruction) : Prop where
  performs : ∃ action, op.Agrees (Indexed tables) action ∧ i.operation? = some action
  registers : i.registers? = some op.registers
  decodes : ∀ rest : List UInt16, Instruction.decode? (i.encode ++ rest) = some i
  narrowest : ∀ k : Instruction, k.WellFormed → k.operation? = i.operation? → i.size ≤ k.size
  narrowestTexts : ∀ (k : Instruction) (effect : Operation Contents), k.WellFormed →
    i.resolve? tables.contents? = some effect → k.resolve? tables.contents? = some effect →
    i.size ≤ k.size

def boxLong : Request .method :=
  .method Primitive.long.wrapper.text Primitive.boxer (Delegation.boxProto .long)

theorem exists_boxLong : ∃ (slot : Slot .method) (tables : Tables),
    (Pools.after [⟨.method, boxLong⟩]).finish = .ok tables ∧
    (Pools.after [⟨.method, boxLong⟩]).Covers slot := by
  have hSmall : ∀ t, (Pools.after [⟨.method, boxLong⟩]).size t ≤ 65536 := fun t =>
    Nat.le_trans (Pools.size_after_le _ t) (by decide)
  obtain ⟨tables, hFinish⟩ := (Pools.wellFormed_after _).exists_finish_iff.mpr
    ⟨hSmall _, hSmall _, hSmall _, hSmall _⟩
  obtain ⟨slot, -, hSlot⟩ := (boxLong.interns_intern Pools.wellFormed_empty).success (by decide)
  exact ⟨slot, tables, hFinish, Pools.covers_of_contents? hSlot⟩

end Operation

end DexForge
