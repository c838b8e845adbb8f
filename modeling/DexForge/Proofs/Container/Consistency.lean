import DexForge.Container.Verify
import DexForge.Proofs.Container.Disassembly
import DexForge.Proofs.Container.Loading
import DexForge.Proofs.Control.Pairing
import DexForge.Proofs.Instruction.Registers
import DexForge.Proofs.Order.Sorting

/-! # Verified containers are the consistent ones

Verification compares neighbours only, looks indices up through other tables and counts registers
in 16 bits. It accepts a loaded container exactly when any two entries of a table are in order, every
index is in range and every register, counted without wrapping round, lies inside its frame.
-/
set_option autoImplicit false

namespace DexForge

instance : Std.TransCmp ProtoId.order :=
  inferInstanceAs (Std.TransCmp (compareLex (compareOn ProtoId.returns) (compareOn ProtoId.params)))

instance : Std.TransCmp MemberId.order :=
  inferInstanceAs (Std.TransCmp (compareLex (compareOn MemberId.owner)
    (compareLex (compareOn MemberId.name) (compareOn MemberId.descriptor))))

namespace Verify

variable {α : Type} {cmp : α → α → Ordering}

/-- Comparing neighbours is enough, because the order is transitive. -/
theorem descent?_eq_none_iff [Std.TransCmp cmp] {entries : List α} (position : Nat) :
    descent? cmp position entries = none ↔ entries.Pairwise fun a b => cmp a b = .lt := by
  induction entries generalizing position with
  | nil => simp [descent?]
  | cons a rest ih =>
    cases rest with
    | nil => simp [descent?]
    | cons b rest =>
      rw [descent?, List.pairwise_cons]
      constructor
      · intro h
        split at h
        · rename_i hLess
          have hRest := (ih (position + 1)).mp h
          refine ⟨?_, hRest⟩
          intro x hx
          rcases List.mem_cons.mp hx with rfl | hx
          · exact hLess
          · exact Std.TransCmp.lt_trans hLess ((List.pairwise_cons.mp hRest).1 x hx)
        · cases h
      · rintro ⟨hHead, hRest⟩
        rw [if_pos (hHead b List.mem_cons_self)]
        exact (ih (position + 1)).mpr hRest

theorem sorted_eq_ok_iff [Std.TransCmp cmp] {t : TableName} {entries : Array α} :
    sorted t cmp entries = .ok () ↔ StrictlyAscending cmp entries := by
  rw [strictlyAscending_iff, ← descent?_eq_none_iff 1, sorted]
  cases descent? cmp 1 entries.toList <;> simp

theorem each_eq_ok_iff {check : α → Except ContainerError Unit} {items : List α} :
    each check items = .ok () ↔ ∀ a ∈ items, check a = .ok () := by
  induction items with
  | nil => simp [each]
  | cons a rest ih =>
    rw [each, List.forall_mem_cons]
    cases h : check a with
    | ok u => simpa using ih
    | error e => simp

theorem resolves_eq_ok_iff {lookup : Except ContainerError α} :
    resolves lookup = .ok () ↔ ∃ a, lookup = .ok a := by
  cases lookup <;> simp [resolves, Except.map]

theorem seq_eq_ok_iff {ε β : Type} {x : Except ε Unit} {y : Except ε β} {b : β} :
    (x >>= fun _ => y) = .ok b ↔ x = .ok () ∧ y = .ok b := by
  cases x <;> simp

end Verify

namespace Instruction

theorem registers?_lt_iff {limit : UInt16} (i : Instruction) :
    (∃ regs, i.registers? = some regs ∧ ∀ r ∈ regs, r < limit) ↔
      ∀ r ∈ i.touched, r < limit.toNat := by
  constructor
  · rintro ⟨regs, hRegs, hLess⟩
    rw [← registers?_eq_some_iff.mp hRegs, List.forall_mem_map]
    exact hLess
  · intro hLess
    -- numbers below the limit are numbers of registers, so counting does not stop
    have hFits : ∀ n ∈ i.touched, (UInt16.ofNat n).toNat = n := fun n hn =>
      UInt16.toNat_ofNat_of_lt (Nat.lt_trans (hLess n hn) limit.toNat_lt)
    refine ⟨i.touched.map UInt16.ofNat, registers?_eq_some_iff.mpr ?_, ?_⟩
    · rw [List.map_map]
      exact (List.map_congr_left hFits).trans (List.map_id _)
    · rw [List.forall_mem_map]
      intro n hn
      rw [UInt16.lt_iff_toNat_lt, hFits n hn]
      exact hLess n hn

end Instruction

namespace Container

open Verify

def extent (c : Container) : ReferenceKind → Nat
  | .string => c.strings.size
  | .type => c.types.size
  | .field => c.fields.size
  | .method => c.methods.size

def ProtoInRange (c : Container) (p : ProtoId) : Prop :=
  p.shorty.toNat < c.strings.size ∧ p.returns.toNat < c.types.size ∧
    ∀ t ∈ p.params, t.toNat < c.types.size

/-- `descriptors` is the size of the table that the descriptor is an index of. -/
def MemberInRange (c : Container) (descriptors : Nat) (m : MemberId) : Prop :=
  m.owner.toNat < c.types.size ∧ m.name.toNat < c.strings.size ∧
    m.descriptor.toNat < descriptors

structure ConsistentTables (c : Container) : Prop where
  strings : StrictlyAscending Utf16.order c.strings
  types : StrictlyAscending compare c.types
  protos : StrictlyAscending ProtoId.order c.protos
  fields : StrictlyAscending MemberId.order c.fields
  methods : StrictlyAscending MemberId.order c.methods
  typeNames : ∀ name ∈ c.types, name.toNat < c.strings.size
  protoParts : ∀ p ∈ c.protos, c.ProtoInRange p
  fieldParts : ∀ f ∈ c.fields, c.MemberInRange c.types.size f
  methodParts : ∀ m ∈ c.methods, c.MemberInRange c.protos.size m

structure ConsistentCode (c : Container) (code : CodeItem) : Prop where
  ins_le : code.ins.toNat ≤ code.registers.toNat
  instructions : ∃ is, CodeItem.Decodes code.units is ∧ ∀ i ∈ is,
    (∀ r ∈ i.touched, r < code.registers.toNat) ∧
      ∀ reference ∈ i.reference?, reference.index.toNat < c.extent reference.kind

structure ConsistentClass (c : Container) (d : ClassDef) : Prop where
  type : d.type.toNat < c.types.size
  superclass : d.superclass ≠ noIndex → d.superclass.toNat < c.types.size
  sourceFile : d.sourceFile ≠ noIndex → d.sourceFile.toNat < c.strings.size
  interfaces : ∀ i ∈ d.interfaces, i.toNat < c.types.size
  distinct : d.interfaces.Nodup
  fields : ∀ data ∈ d.data, ∀ f ∈ data.fields, f.field.toNat < c.fields.size
  methods : ∀ data ∈ d.data, ∀ m ∈ data.methods, m.method.toNat < c.methods.size ∧
    ∀ code ∈ m.code, c.ConsistentCode code

structure Consistent (c : Container) : Prop where
  tables : c.ConsistentTables
  classes : ∀ d ∈ c.classes, c.ConsistentClass d

variable {c : Container}

theorem entry_eq_ok_iff {α : Type} {t : TableName} {entries : Array α} {i : UInt32} {a : α} :
    entry t entries i = .ok a ↔ entries[i.toNat]? = some a := by
  unfold entry
  split
  · next h => simp [h]
  · next h => simp [h]

theorem exists_entry_iff {α : Type} {t : TableName} {entries : Array α} {i : UInt32} :
    (∃ a, entry t entries i = .ok a) ↔ i.toNat < entries.size := by
  simp only [entry_eq_ok_iff, Array.getElem?_eq_some_iff]
  exact ⟨fun ⟨_, h, _⟩ => h, fun h => ⟨_, h, rfl⟩⟩

theorem exists_bind_iff {ε α β : Type} {x : Except ε α} {f : α → Except ε β} {Q : Prop}
    (h : ∀ a, (∃ b, f a = .ok b) ↔ Q) : (∃ b, (x >>= f) = .ok b) ↔ (∃ a, x = .ok a) ∧ Q := by
  cases x with
  | error e => simp
  | ok a => simp [h a]

theorem exists_entry_bind_iff {α β : Type} {t : TableName} {entries : Array α} {i : UInt32}
    {f : α → Except ContainerError β} {P : α → Prop} (hf : ∀ a, (∃ b, f a = .ok b) ↔ P a) :
    (∃ b, (entry t entries i >>= f) = .ok b) ↔ ∃ a, entries[i.toNat]? = some a ∧ P a := by
  simp only [Except.bind_eq_ok_iff, entry_eq_ok_iff]
  constructor
  · rintro ⟨b, a, ha, hb⟩
    exact ⟨a, ha, (hf a).mp ⟨b, hb⟩⟩
  · rintro ⟨a, ha, hP⟩
    obtain ⟨b, hb⟩ := (hf a).mpr hP
    exact ⟨b, a, ha, hb⟩

theorem exists_getElem?_iff {α : Type} {entries : Array α} {P : α → Prop} {i : Nat}
    (h : ∀ a ∈ entries, P a) : (∃ a, entries[i]? = some a ∧ P a) ↔ i < entries.size := by
  constructor
  · rintro ⟨a, ha, -⟩
    exact (Array.getElem?_eq_some_iff.mp ha).1
  · intro hi
    exact ⟨entries[i], Array.getElem?_eq_getElem hi, h _ (Array.getElem_mem hi)⟩

theorem exists_string_iff {i : UInt32} :
    (∃ text, c.string i = .ok text) ↔ i.toNat < c.strings.size :=
  exists_entry_iff

section Lookups

variable (hNames : ∀ name ∈ c.types, name.toNat < c.strings.size)
include hNames

theorem exists_typeText_iff {i : UInt32} :
    (∃ text, c.typeText i = .ok text) ↔ i.toNat < c.types.size :=
  (exists_entry_bind_iff fun _ => exists_string_iff).trans (exists_getElem?_iff hNames)

theorem exists_typeTexts_iff {types : List UInt16} :
    (∃ texts, types.mapM (fun t => c.typeText t.toUInt32) = .ok texts) ↔
      ∀ t ∈ types, t.toNat < c.types.size := by
  constructor
  · rintro ⟨texts, hTexts⟩ t ht
    obtain ⟨text, -, hText⟩ := Pairing.exists_of_mem_left (Except.mapM_eq_ok_iff.mp hTexts) ht
    rw [← UInt16.toNat_toUInt32]
    exact (exists_typeText_iff hNames).mp ⟨text, hText⟩
  · intro h
    refine Except.exists_mapM_eq_ok fun t ht => (exists_typeText_iff hNames).mpr ?_
    rw [UInt16.toNat_toUInt32]
    exact h t ht

theorem exists_protoText_iff (hProtos : ∀ p ∈ c.protos, c.ProtoInRange p) {i : UInt32} :
    (∃ text, c.protoText i = .ok text) ↔ i.toNat < c.protos.size := by
  refine (exists_entry_bind_iff (P := fun p : ProtoId =>
    (∀ t ∈ p.params, t.toNat < c.types.size) ∧ p.returns.toNat < c.types.size) fun p => ?_).trans
    (exists_getElem?_iff fun p hp => ⟨(hProtos p hp).2.2, (hProtos p hp).2.1⟩)
  rw [← exists_typeTexts_iff hNames, ← exists_typeText_iff hNames]
  exact exists_bind_iff fun params => Except.exists_bind_pure_iff

theorem exists_memberRef_iff {descriptorText : UInt32 → Except ContainerError String}
    {descriptors : Nat}
    (hDescriptor : ∀ {i}, (∃ text, descriptorText i = .ok text) ↔ i.toNat < descriptors)
    (m : MemberId) :
    (∃ ref, c.memberRef descriptorText m = .ok ref) ↔ c.MemberInRange descriptors m := by
  rw [MemberInRange, ← UInt16.toNat_toUInt32, ← UInt16.toNat_toUInt32 m.descriptor,
    ← exists_typeText_iff hNames, ← exists_string_iff, ← hDescriptor]
  exact exists_bind_iff fun owner => exists_bind_iff fun name => Except.exists_bind_pure_iff

theorem exists_fieldRef_iff {i : UInt32} : (∃ ref, c.fieldRef i = .ok ref) ↔
    ∃ f, c.fields[i.toNat]? = some f ∧ c.MemberInRange c.types.size f :=
  exists_entry_bind_iff (exists_memberRef_iff hNames (exists_typeText_iff hNames))

theorem exists_methodRef_iff (hProtos : ∀ p ∈ c.protos, c.ProtoInRange p) {i : UInt32} :
    (∃ ref, c.methodRef i = .ok ref) ↔
      ∃ m, c.methods[i.toNat]? = some m ∧ c.MemberInRange c.protos.size m :=
  exists_entry_bind_iff (exists_memberRef_iff hNames (exists_protoText_iff hNames hProtos))

end Lookups

/-- Checking every index of a table checks every entry of it, as long as indices do not repeat. -/
theorem each_indices_iff {α : Type} {entries : Array α} {P : α → Prop}
    {check : UInt32 → Except ContainerError Unit} (hSize : entries.size < 0x100000000)
    (hCheck : ∀ i, check i = .ok () ↔ ∃ a, entries[i.toNat]? = some a ∧ P a) :
    each check (indices entries.size) = .ok () ↔ ∀ a ∈ entries, P a := by
  have hIndex : ∀ j < entries.size, (UInt32.ofNat j).toNat = j := fun j hj =>
    UInt32.toNat_ofNat_of_lt (Nat.lt_trans hj hSize)
  simp only [each_eq_ok_iff, indices, List.forall_mem_map, List.mem_range, hCheck]
  constructor
  · intro h a ha
    obtain ⟨j, hj, rfl⟩ := Array.mem_iff_getElem.mp ha
    obtain ⟨b, hb, hP⟩ := h j hj
    rw [hIndex j hj, Array.getElem?_eq_getElem hj] at hb
    rwa [Option.some.inj hb]
  · intro h j hj
    rw [hIndex j hj]
    exact ⟨entries[j], Array.getElem?_eq_getElem hj, h _ (Array.getElem_mem hj)⟩

theorem verifyProto_eq_ok_iff (hNames : ∀ name ∈ c.types, name.toNat < c.strings.size)
    {p : ProtoId} : c.verifyProto p = .ok () ↔ c.ProtoInRange p := by
  simp only [verifyProto, seq_eq_ok_iff, resolves_eq_ok_iff, each_eq_ok_iff, exists_string_iff,
    exists_typeText_iff hNames, UInt16.toNat_toUInt32, ProtoInRange]

theorem strings_ascending_iff :
    StrictlyAscending compare (c.strings.map Utf16.encode) ↔
      StrictlyAscending Utf16.order c.strings := by
  rw [strictlyAscending_iff, strictlyAscending_iff, Array.toList_map, List.pairwise_map]
  rfl

theorem verifyTables_eq_ok_iff (hFields : c.fields.size < 0x100000000)
    (hMethods : c.methods.size < 0x100000000) :
    c.verifyTables = .ok () ↔ c.ConsistentTables := by
  have hEachType : ∀ check, each check c.types.toList = .ok () ↔
      ∀ name ∈ c.types, check name = .ok () := by simp [each_eq_ok_iff]
  have hEachProto : ∀ check, each check c.protos.toList = .ok () ↔
      ∀ p ∈ c.protos, check p = .ok () := by simp [each_eq_ok_iff]
  simp only [verifyTables, seq_eq_ok_iff, sorted_eq_ok_iff, strings_ascending_iff, hEachType,
    hEachProto, resolves_eq_ok_iff, exists_string_iff]
  constructor
  · rintro ⟨hStrings, hTypes, hNames, hProtos, hProtoOrder, hFieldRefs, hFieldOrder, hMethodRefs,
      hMethodOrder⟩
    have hProtos : ∀ p ∈ c.protos, c.ProtoInRange p := fun p hp =>
      (verifyProto_eq_ok_iff hNames).mp (hProtos p hp)
    rw [each_indices_iff hFields fun i => by
      rw [resolves_eq_ok_iff, exists_fieldRef_iff hNames]] at hFieldRefs
    rw [each_indices_iff hMethods fun i => by
      rw [resolves_eq_ok_iff, exists_methodRef_iff hNames hProtos]] at hMethodRefs
    exact ⟨hStrings, hTypes, hProtoOrder, hFieldOrder, hMethodOrder, hNames, hProtos, hFieldRefs,
      hMethodRefs⟩
  · intro h
    refine ⟨h.strings, h.types, h.typeNames, ?_, h.protos, ?_, h.fields, ?_, h.methods⟩
    · exact fun p hp => (verifyProto_eq_ok_iff h.typeNames).mpr (h.protoParts p hp)
    · rw [each_indices_iff hFields fun i => by
        rw [resolves_eq_ok_iff, exists_fieldRef_iff h.typeNames]]
      exact h.fieldParts
    · rw [each_indices_iff hMethods fun i => by
        rw [resolves_eq_ok_iff, exists_methodRef_iff h.typeNames h.protoParts]]
      exact h.methodParts

theorem optional_eq_ok_iff {i : UInt32} {check rest : Except ContainerError Unit} :
    (if i ≠ noIndex then check >>= fun _ => rest else rest) = .ok () ↔
      (i ≠ noIndex → check = .ok ()) ∧ rest = .ok () := by
  split
  · rename_i hSome
    simp [seq_eq_ok_iff, hSome]
  · rename_i hNone
    simp [hNone]

section Classes

variable (h : c.ConsistentTables)
include h

theorem resolves_fieldRef_iff {i : UInt32} :
    resolves (c.fieldRef i) = .ok () ↔ i.toNat < c.fields.size := by
  rw [resolves_eq_ok_iff, exists_fieldRef_iff h.typeNames, exists_getElem?_iff h.fieldParts]

theorem resolves_methodRef_iff {i : UInt32} :
    resolves (c.methodRef i) = .ok () ↔ i.toNat < c.methods.size := by
  rw [resolves_eq_ok_iff, exists_methodRef_iff h.typeNames h.protoParts,
    exists_getElem?_iff h.methodParts]

theorem verifyReference_eq_ok_iff {r : Reference} :
    c.verifyReference r = .ok () ↔ r.index.toNat < c.extent r.kind := by
  obtain ⟨kind, index⟩ := r
  cases kind with
  | string => exact resolves_eq_ok_iff.trans exists_string_iff
  | type => exact resolves_eq_ok_iff.trans (exists_typeText_iff h.typeNames)
  | field => exact resolves_fieldRef_iff h
  | method => exact resolves_methodRef_iff h

theorem verifyInstruction_eq_ok_iff {code : CodeItem} {i : Instruction} :
    c.verifyInstruction code i = .ok () ↔ (∀ r ∈ i.touched, r < code.registers.toNat) ∧
      ∀ reference ∈ i.reference?, reference.index.toNat < c.extent reference.kind := by
  rw [← Instruction.registers?_lt_iff, verifyInstruction]
  cases i.registers? with
  | none => simp
  | some regs =>
    have hInside : regs.find? (code.registers ≤ ·) = none ↔ ∀ r ∈ regs, r < code.registers := by
      simp [List.find?_eq_none, UInt16.not_le]
    simp only [Option.some.injEq, exists_eq_left', ← hInside]
    cases regs.find? (code.registers ≤ ·) with
    | some register => simp
    | none =>
      cases i.reference? with
      | none => simp
      | some reference => simpa using verifyReference_eq_ok_iff h

theorem verifyCode_eq_ok_iff {code : CodeItem} :
    c.verifyCode code = .ok () ↔ c.ConsistentCode code := by
  rw [verifyCode]
  split
  · rename_i hIns
    rw [UInt16.lt_iff_toNat_lt] at hIns
    simp only [reduceCtorEq, false_iff]
    intro hCode
    exact absurd hCode.ins_le (by omega)
  · rename_i hIns
    rw [UInt16.lt_iff_toNat_lt] at hIns
    rw [Except.bind_eq_ok_iff]
    simp only [CodeItem.instructions_eq_ok_iff, each_eq_ok_iff, verifyInstruction_eq_ok_iff h]
    constructor
    · rintro ⟨_, ⟨is, hDecodes, rfl⟩, hEach⟩
      refine ⟨by omega, is, hDecodes, ?_⟩
      intro i hi
      rw [← CodeItem.map_snd_positioned 0 is] at hi
      obtain ⟨entry, hEntry, rfl⟩ := List.mem_map.mp hi
      exact hEach entry hEntry
    · intro hCode
      obtain ⟨is, hDecodes, hEach⟩ := hCode.instructions
      refine ⟨_, ⟨is, hDecodes, rfl⟩, ?_⟩
      intro entry hEntry
      apply hEach
      rw [← CodeItem.map_snd_positioned 0 is]
      exact List.mem_map_of_mem hEntry

theorem verifyMethod_eq_ok_iff {m : MethodEntry} :
    c.verifyMethod m = .ok () ↔
      m.method.toNat < c.methods.size ∧ ∀ code ∈ m.code, c.ConsistentCode code := by
  rw [verifyMethod, seq_eq_ok_iff, resolves_methodRef_iff h]
  refine and_congr_right fun _ => ?_
  cases m.code with
  | none => simp
  | some code => simpa using verifyCode_eq_ok_iff h

theorem verifyInterfaces_eq_ok_iff {owner : UInt32} {seen interfaces : List UInt16} :
    c.verifyInterfaces owner seen interfaces = .ok () ↔
      (∀ i ∈ interfaces, i.toNat < c.types.size) ∧ interfaces.Nodup ∧ ∀ i ∈ interfaces, i ∉ seen := by
  induction interfaces generalizing seen with
  | nil => simp [verifyInterfaces]
  | cons i rest ih =>
    have hText := exists_typeText_iff h.typeNames (i := i.toUInt32)
    rw [UInt16.toNat_toUInt32] at hText
    simp only [List.forall_mem_cons, List.nodup_cons, ← hText]
    cases hFound : c.typeText i.toUInt32 with
    | error e => simp [verifyInterfaces, hFound]
    | ok text =>
      rw [verifyInterfaces, hFound, Except.ok_bind]
      by_cases hSeen : i ∈ seen
      · rw [if_pos (List.contains_iff_mem.mpr hSeen)]
        have hError : ∀ text', (c.typeText owner >>= fun o =>
            Except.error (ContainerError.duplicateInterface o text')) ≠ Except.ok () := by
          intro text'
          cases c.typeText owner <;> simp
        simp only [hError, false_iff]
        rintro ⟨-, -, hNew, -⟩
        exact hNew hSeen
      · rw [if_neg (by rwa [List.contains_iff_mem]), ih]
        simp only [List.mem_cons, not_or]
        constructor
        · rintro ⟨hRange, hNodup, hNew⟩
          exact ⟨⟨⟨text, rfl⟩, hRange⟩, ⟨fun hi => (hNew i hi).1 rfl, hNodup⟩, hSeen,
            fun j hj => (hNew j hj).2⟩
        · rintro ⟨⟨-, hRange⟩, ⟨hHead, hNodup⟩, -, hNew⟩
          exact ⟨hRange, hNodup, fun j hj => ⟨fun hSame => hHead (hSame ▸ hj), hNew j hj⟩⟩

theorem verifyClass_eq_ok_iff {d : ClassDef} :
    c.verifyClass d = .ok () ↔ c.ConsistentClass d := by
  simp only [verifyClass, seq_eq_ok_iff, optional_eq_ok_iff, resolves_eq_ok_iff,
    exists_typeText_iff h.typeNames, exists_string_iff, verifyInterfaces_eq_ok_iff h]
  constructor
  · rintro ⟨hType, hSuper, hSource, ⟨hInterfaces, hDistinct, -⟩, hData⟩
    have hMembers : ∀ x ∈ d.data, (∀ f ∈ x.fields, f.field.toNat < c.fields.size) ∧
        ∀ m ∈ x.methods, m.method.toNat < c.methods.size ∧
          ∀ code ∈ m.code, c.ConsistentCode code := by
      intro x hx
      rw [Option.mem_def.mp hx] at hData
      simpa only [seq_eq_ok_iff, each_eq_ok_iff, resolves_fieldRef_iff h,
        verifyMethod_eq_ok_iff h] using hData
    exact ⟨hType, hSuper, hSource, hInterfaces, hDistinct, fun x hx => (hMembers x hx).1,
      fun x hx => (hMembers x hx).2⟩
  · intro hClass
    refine ⟨hClass.type, hClass.superclass, hClass.sourceFile,
      ⟨hClass.interfaces, hClass.distinct, by simp⟩, ?_⟩
    cases hData : d.data with
    | none => rfl
    | some x =>
      simp only [seq_eq_ok_iff, each_eq_ok_iff, resolves_fieldRef_iff h, verifyMethod_eq_ok_iff h]
      exact ⟨hClass.fields x hData, hClass.methods x hData⟩

end Classes

theorem verify_eq_ok_iff_consistent (hFields : c.fields.size < 0x100000000)
    (hMethods : c.methods.size < 0x100000000) : c.verify = .ok () ↔ c.Consistent := by
  rw [verify, seq_eq_ok_iff, verifyTables_eq_ok_iff hFields hMethods]
  constructor
  · rintro ⟨hTables, hClasses⟩
    refine ⟨hTables, fun d hd => (verifyClass_eq_ok_iff hTables).mp ?_⟩
    exact each_eq_ok_iff.mp hClasses d (Array.mem_toList_iff.mpr hd)
  · intro h
    refine ⟨h.tables, each_eq_ok_iff.mpr fun d hd => (verifyClass_eq_ok_iff h.tables).mpr ?_⟩
    exact h.classes d (Array.mem_toList_iff.mp hd)

end Container

namespace Loader

theorem size_of_entries {α : Type} {read : Nat → Load α} {stride count offset : Nat}
    {done result : Array α} (h : entries read stride count offset done = .ok result) :
    result.size = done.size + count := by
  induction count generalizing offset done with
  | zero =>
    cases h
    rfl
  | succ count ih =>
    rw [entries] at h
    split at h
    · rw [ih h, Array.size_push]
      omega
    · cases h

theorem size_of_table {α : Type} {read : Nat → Load α} {stride : Nat} {s : Section}
    {result : Array α} (h : table s stride read = .ok result) : result.size < 0x100000000 := by
  rw [size_of_entries h]
  simpa using s.size.toNat_lt

end Loader

namespace Container

/-- Verification accepts a loaded container exactly when it is consistent. -/
theorem verify_eq_ok_iff {bytes : Bytes} {c : Container} (h : load bytes = .ok c) :
    c.verify = .ok () ↔ c.Consistent := by
  simp only [load, Except.bind_eq_ok_iff] at h
  obtain ⟨header, -, strings, -, types, -, protos, -, fields, hFields, methods, hMethods, classes,
    -, map, -, hc⟩ := h
  cases hc
  exact verify_eq_ok_iff_consistent (Loader.size_of_table hFields) (Loader.size_of_table hMethods)

/-- The header of a file that holds one type and no string to name it. -/
def namelessHeader : Header := { Header.blank with fileSize := 116, typeIds := ⟨1, 112⟩ }

def nameless : Bytes := Seal.stamp (namelessHeader.encode ++ LittleEndian.ofUInt32 0).toArray

theorem load_nameless : ∃ header, load nameless =
    .ok ⟨nameless, header, #[], #[0], #[], #[], #[], #[], #[]⟩ := by
  have hHeader : Loader.checkedHeader nameless =
      .ok (Seal.sealedHeader namelessHeader (LittleEndian.ofUInt32 0)) :=
    Loader.checkedHeader_stamp rfl rfl rfl
  have hType : HoldsAt nameless headerSize (LittleEndian.ofUInt32 0) := by
    refine ⟨[], ?_⟩
    rw [nameless, Seal.toList_stamp, List.drop_left' (Header.length_encode _), List.append_nil]
  have hTypes : Loader.table ⟨1, 112⟩ 4 (Loader.uint32 nameless .typeId) = .ok #[0] := by
    have hWord : Loader.uint32 nameless .typeId 112 = .ok 0 := Loader.uint32_of_holdsAt hType _
    simp [Loader.table, Loader.entries, hWord]
  -- every other section is empty, so its table is read without looking at the file
  refine ⟨Seal.sealedHeader namelessHeader (LittleEndian.ofUInt32 0), ?_⟩
  rw [load, hHeader, Except.ok_bind, Except.bind_eq_ok_iff]
  refine ⟨#[], rfl, ?_⟩
  rw [Except.bind_eq_ok_iff]
  exact ⟨#[0], hTypes, rfl⟩

theorem not_consistent_nameless : ∃ c, load nameless = .ok c ∧ ¬ c.Consistent := by
  obtain ⟨header, hLoad⟩ := load_nameless
  refine ⟨_, hLoad, fun h => ?_⟩
  have hVerify := (verify_eq_ok_iff hLoad).mpr h
  simp [verify, verifyTables, Verify.sorted, Verify.descent?, Verify.each, Verify.resolves, string,
    entry, Except.map] at hVerify

end Container

end DexForge
