import DexForge.Proofs.Container.Verification
import DexForge.Proofs.Layout.Soundness

/-! # Stored classes pass verification -/
set_option autoImplicit false

namespace DexForge

namespace Container.Shows

open Image Verify

variable {p : Pools} {r : Ranking} {c : Container} (h : c.Shows r) (hOrders : r.Orders p)
include h hOrders

theorem finds {t : TableName} {slot : Slot t} {x : Contents t} (hx : p.contents? slot = some x) :
    Operation.Finds r.narrow c.lookup? t slot (Contents.referent x) := by
  obtain ⟨j, hj⟩ := hOrders.exists_place (Pools.lt_size_of_contents? hx)
  have hBound := Nat.lt_of_lt_of_le (hOrders.lt_size_of_place hj) (h.small t)
  have hPlace : r.place? slot = some (UInt32.ofNat j).toNat := by
    rw [hj, Ranking.toNat_ofNat hBound]
  exact ⟨UInt32.ofNat j, (hOrders.index_eq_ok_iff h.small).mpr hPlace,
    lookup?_eq_some_iff.mpr (h.lookup_of_place hOrders slot hPlace hx)⟩

theorem resolves_of_place {t : TableName} (slot : Slot t) {i : UInt32}
    (hPlace : r.place? slot = some i.toNat) (hSlot : ∃ x, p.contents? slot = some x) :
    resolves (c.lookup t i) = .ok () := by
  obtain ⟨x, hx⟩ := hSlot
  exact resolves_of_ok (h.lookup_of_place hOrders slot hPlace hx)

theorem verifyInstruction_eq_ok {body : MethodBody Slot} (hBody : body.Sound p) {code : CodeItem}
    (hRegisters : code.registers = body.registers) {op : Operation Slot} (hOp : op ∈ body.code)
    {i : Instruction} (hLower : op.lower r.narrow = .ok i) :
    c.verifyInstruction code i = .ok () := by
  obtain ⟨hFits, action, hAction⟩ := hBody.code op hOp
  obtain ⟨i', hLower', hResolve⟩ := Operation.exists_lower
    (hAction.map (S := Operation.Finds r.narrow c.lookup?) (f := Contents.referent)
      fun _ _ _ hx => h.finds hOrders hx) hFits.encodable
  obtain rfl := Except.ok.inj (hLower.symm.trans hLower')
  have hInside : op.registers.find? (code.registers ≤ ·) = none := by
    rw [List.find?_eq_none]
    intro reg hReg
    rw [hRegisters, decide_eq_true_iff]
    exact UInt16.not_le.mpr (hFits.registers reg hReg)
  rw [verifyInstruction, Operation.registers?_of_lower hLower hFits.encodable.last_not_mem]
  dsimp only
  rw [hInside]
  dsimp only
  split
  · next reference hReference => exact verifyReference_eq_ok hResolve hReference
  · rfl

theorem verifyCode_eq_ok {body : MethodBody Slot} (hBody : body.Sound p) {code : CodeItem}
    (hStores : StoresCode r.narrow body code) : c.verifyCode code = .ok () := by
  obtain ⟨is, hLower, hInstructions⟩ := hStores.instructions
  have hIns : ¬code.registers < code.ins := by
    rw [hStores.registers, hStores.ins]
    exact UInt16.not_lt.mpr hBody.ins_le
  rw [verifyCode, if_neg hIns, hInstructions, Except.ok_bind]
  refine each_eq_ok_iff.mpr ?_
  intro entry hEntry
  have hMem : entry.2 ∈ is := by
    rw [← CodeItem.map_snd_positioned 0 is]
    exact List.mem_map_of_mem hEntry
  obtain ⟨op, hOp, hLower⟩ := Pairing.exists_of_mem_right (Except.mapM_eq_ok_iff.mp hLower) hMem
  exact h.verifyInstruction_eq_ok hOrders hBody hStores.registers hOp hLower

theorem verifyMethod_eq_ok {m : MethodDefinition} (hBody : m.body.Sound p) {entry : MethodEntry}
    (hStored : MethodStored r.narrow m entry) : c.verifyMethod entry = .ok () := by
  obtain ⟨code, hCode, -, hStores⟩ := hStored.code
  have hRef : resolves (c.methodRef entry.method) = .ok () :=
    h.resolves_of_place hOrders m.body.method hStored.method hBody.method
  rw [verifyMethod, hRef, hCode]
  exact h.verifyCode_eq_ok hOrders hBody hStores

omit h hOrders in
theorem verifyInterfaces_eq_ok {interfaces seen : List UInt16} (owner : UInt32)
    (hText : ∀ i ∈ interfaces, ∃ text, c.typeText i.toUInt32 = .ok text)
    (hDistinct : interfaces.Nodup) (hNew : ∀ i ∈ interfaces, i ∉ seen) :
    c.verifyInterfaces owner seen interfaces = .ok () := by
  induction interfaces generalizing seen with
  | nil => rfl
  | cons i rest ih =>
    rw [List.forall_mem_cons] at hText hNew
    rw [List.nodup_cons] at hDistinct
    obtain ⟨text, hHead⟩ := hText.1
    have hUnseen : ¬seen.contains i = true := by
      rw [List.contains_iff_mem]
      exact hNew.1
    rw [verifyInterfaces, hHead, Except.ok_bind, if_neg hUnseen]
    refine ih hText.2 hDistinct.2 ?_
    intro j hj hSeen
    obtain rfl | hSeen := List.mem_cons.mp hSeen
    · exact hDistinct.1 hj
    · exact hNew.2 j hj hSeen

omit h in
theorem index_ne {t : TableName} (slot slot' : Slot t) {i i' : UInt32}
    (hPlace : r.place? slot = some i.toNat) (hPlace' : r.place? slot' = some i'.toNat)
    (hSlot : ∃ x, p.contents? slot = some x) (hNe : slot ≠ slot') : i ≠ i' := by
  rintro rfl
  obtain ⟨x, hx⟩ := hSlot
  have hx' := hx
  rw [← hOrders.contents_of_place hPlace, hOrders.contents_of_place hPlace'] at hx'
  exact hNe (Pools.contents?_injective hx hx')

theorem verifyInterfaces_of_remaps {slots : List (Slot .type)} {interfaces : List UInt16}
    (hSlots : ∀ slot ∈ slots, ∃ x, p.contents? slot = some x) (hDistinct : slots.Nodup)
    (hRemaps : List.Forall₂ (fun slot index => Remaps r.narrow.types slot index.toUInt32) slots
      interfaces) (owner : UInt32) : c.verifyInterfaces owner [] interfaces = .ok () := by
  refine verifyInterfaces_eq_ok owner ?_ ?_ fun _ _ => List.not_mem_nil
  · intro i hi
    obtain ⟨slot, hSlot, hPlace⟩ := Pairing.exists_of_mem_right hRemaps hi
    obtain ⟨x, hx⟩ := hSlots slot hSlot
    exact ⟨_, h.lookup_of_place hOrders slot hPlace hx⟩
  · refine Pairing.pairwise hRemaps hDistinct ?_
    rintro slot hSlot slot' - i i' hPlace hPlace' hNe rfl
    exact index_ne hOrders slot slot' hPlace hPlace' (hSlots slot hSlot) hNe
      rfl

theorem verifyFields_eq_ok {fields : List FieldDefinition} {declared stored : List FieldEntry}
    (hFields : ∀ f ∈ fields, ∃ x, p.contents? f.field = some x)
    (hStored : List.Forall₂ (FieldStored r.narrow) fields declared) (hPerm : stored.Perm declared) :
    ∀ entry ∈ stored, resolves (c.fieldRef entry.field) = .ok () := by
  intro entry hEntry
  obtain ⟨f, hf, hStored⟩ := Pairing.exists_of_mem_right hStored (hPerm.mem_iff.mp hEntry)
  exact h.resolves_of_place hOrders f.field hStored.field (hFields f hf)

theorem verifyMethods_eq_ok {methods : List MethodDefinition} {declared stored : List MethodEntry}
    (hMethods : ∀ m ∈ methods, m.body.Sound p)
    (hStored : List.Forall₂ (MethodStored r.narrow) methods declared)
    (hPerm : stored.Perm declared) : ∀ entry ∈ stored, c.verifyMethod entry = .ok () := by
  intro entry hEntry
  obtain ⟨m, hm, hStored⟩ := Pairing.exists_of_mem_right hStored (hPerm.mem_iff.mp hEntry)
  exact h.verifyMethod_eq_ok hOrders (hMethods m hm) hStored

theorem resolves_of_remapsOption {α : Type} {t : TableName} {table : Ranked α}
    (hTable : ∀ slot : Slot t, r.place? slot = table.rank[slot.position]?) {slot? : Option (Slot t)}
    {i : UInt32} (hRemaps : RemapsOption table slot? i)
    (hSlot : ∀ slot ∈ slot?, ∃ x, p.contents? slot = some x) (hSome : i ≠ noIndex) :
    resolves (c.lookup t i) = .ok () := by
  cases slot? with
  | none => exact absurd hRemaps hSome
  | some slot =>
    exact h.resolves_of_place hOrders slot ((hTable slot).trans hRemaps) (hSlot slot rfl)

theorem verifyClass_eq_ok {definition : ClassDefinition} (hSound : definition.Sound p)
    {d : ClassDef} (hStored : ClassStored r.narrow definition d) : c.verifyClass d = .ok () := by
  obtain ⟨declared, data, hData, hMembers, hSorts, -⟩ := hStored.members
  have hType : resolves (c.typeText d.type) = .ok () :=
    h.resolves_of_place hOrders definition.type hStored.type hSound.type
  have hSuperclass := h.resolves_of_remapsOption hOrders (t := .type) (fun _ => rfl)
    hStored.superclass hSound.superclass
  have hSourceFile := h.resolves_of_remapsOption hOrders (t := .string) (fun _ => rfl)
    hStored.sourceFile hSound.sourceFile
  have hInterfaces := h.verifyInterfaces_of_remaps hOrders hSound.interfaces hSound.distinct
    hStored.interfaces d.type
  have hFields : each (fun field => resolves (c.fieldRef field.field)) data.fields = .ok () := by
    refine each_eq_ok_iff.mpr (List.forall_mem_append.mpr ⟨?_, ?_⟩)
    · exact h.verifyFields_eq_ok hOrders hSound.staticFields hMembers.staticFields
        hSorts.staticFields.perm
    · exact h.verifyFields_eq_ok hOrders hSound.instanceFields hMembers.instanceFields
        hSorts.instanceFields.perm
  have hMethods : each c.verifyMethod data.methods = .ok () := by
    refine each_eq_ok_iff.mpr (List.forall_mem_append.mpr ⟨?_, ?_⟩)
    · exact h.verifyMethods_eq_ok hOrders hSound.directMethods hMembers.directMethods
        hSorts.directMethods.perm
    · exact h.verifyMethods_eq_ok hOrders hSound.virtualMethods hMembers.virtualMethods
        hSorts.virtualMethods.perm
  have hRest : (if d.sourceFile ≠ noIndex then resolves (c.string d.sourceFile) >>= fun _ => .ok ()
      else .ok ()) = Except.ok () := by
    split
    · next hSome => exact Except.bind_eq_ok_iff.mpr ⟨(), hSourceFile hSome, rfl⟩
    · rfl
  simp only [verifyClass, hType, hInterfaces, hData, hFields, hMethods, Except.ok_bind]
  split
  · next hSome => exact Except.bind_eq_ok_iff.mpr ⟨(), hSuperclass hSome, hRest⟩
  · exact hRest

/-- A container of finished tables and sound classes is verified. -/
theorem verify_eq_ok (hp : p.WellFormed) {order : List ClassDefinition}
    (hSound : ∀ definition ∈ order, definition.Sound p)
    (hStored : List.Forall₂ (ClassStored r.narrow) order c.classes.toList) : c.verify = .ok () := by
  rw [verify, h.verifyTables_eq_ok hOrders hp, Except.ok_bind]
  refine each_eq_ok_iff.mpr ?_
  intro d hd
  obtain ⟨definition, hMem, hStored⟩ := Pairing.exists_of_mem_right hStored hd
  exact h.verifyClass_eq_ok hOrders (hSound definition hMem) hStored

end Container.Shows

end DexForge
