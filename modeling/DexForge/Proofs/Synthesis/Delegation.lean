import DexForge.Proofs.Machine.Delegation
import DexForge.Proofs.Synthesis.SmallDescriptions

/-! # Proxied methods delegate faithfully

The code of a proxied method, as it is read from a synthesized container and executed by the machine,
calls the handler with the arguments that the method was called with and returns its answer. The
handler is the one that the constructor was given.
-/
set_option autoImplicit false

namespace DexForge

open DexForge.Except Machine

namespace Machine.World

variable {Ω : Type} [DecidableEq Ω] (world : World Ω) {c : Container}

theorem foldlM_execute {is : List Instruction} {ops : List (Operation Referent)}
    (h : List.Forall₂ (fun i op => i.resolve? c.lookup? = some op) is ops) (s : State Ω) :
    is.foldlM (world.execute c) s = world.performAll s ops := by
  induction h generalizing s with
  | nil => rfl
  | cons hHead _ ih =>
    rw [List.foldlM_cons, performAll_cons, execute, hHead]
    dsimp only
    cases world.perform s _ with
    | error halt => rfl
    | ok s' => exact ih s'

theorem run_eq {is : List Instruction} {ops : List (Operation Referent)}
    (h : List.Forall₂ (fun i op => i.resolve? c.lookup? = some op) is ops) {s : State Ω}
    {halt : Halt Ω} (hPerform : world.performAll s ops = .error halt) :
    world.run c is s = halt := by
  rw [run, foldlM_execute world h, hPerform]

omit [DecidableEq Ω] in
/-- A run that delegates is not stuck: it reads no register that holds nothing. -/
theorem delegate_ne_stuck (binding : HandlerBinding) (owner : String) (spec : MethodSpec)
    (ordinal : Nat) (proxy : Ω) (args : List (Argument Ω)) :
    (world.delegate binding owner spec ordinal proxy args).ending ≠ .stuck := by
  rw [delegate]
  split
  · simp
  · dsimp only
    rw [convert]
    split
    · simp
    · split
      · split <;> simp
      · split
        · split <;> simp
        · simp

end Machine.World

/-- `entry` is the proxied method with the specification `spec` and the position `ordinal`, and its
code delegates whenever it is entered with arguments that suit its parameters. -/
structure MethodEntry.Delegates (c : Container) (binding : HandlerBinding) (owner : String)
    (spec : MethodSpec) (ordinal : Nat) (entry : MethodEntry) : Prop where
  method : c.methodRef entry.method = .ok ⟨owner, spec.name, spec.proto.text⟩
  code : ∃ code is, entry.code = some code ∧ code.instructions = .ok is ∧
    ∀ (Ω : Type) [DecidableEq Ω] (world : World Ω) (proxy : Ω) (args : List (Argument Ω)),
      List.Forall₂ Argument.Suits args spec.params →
      let halt := world.run c (is.toList.map Prod.snd)
        (.entry code.registers.toNat code.ins.toNat proxy args)
      halt.ending ≠ .stuck ∧ halt = world.delegate binding owner spec ordinal proxy args

/-- `entry` is the constructor of a class, and its code constructs every object that it is entered
with. -/
structure MethodEntry.Constructs (c : Container) (binding : HandlerBinding)
    (owner superclass : String) (entry : MethodEntry) : Prop where
  method : c.methodRef entry.method = .ok ⟨owner, "<init>", "(" ++ binding.handler ++ ")V"⟩
  code : ∃ code is, entry.code = some code ∧ code.instructions = .ok is ∧
    ∀ (Ω : Type) [DecidableEq Ω] (world : World Ω) (proxy handler : Ω),
      world.run c (is.toList.map Prod.snd)
        (.entry code.registers.toNat code.ins.toNat proxy [.reference handler]) =
        construct binding owner superclass proxy handler

namespace Container.Shows

open Image

variable {p : Pools} {r : Ranking} {c : Container} (h : c.Shows r) (hOrders : r.Orders p)
include h hOrders

/-- What a lowered body resolves to is the code that was asked for. -/
theorem resolves_code {body : MethodBody Slot} {body' : MethodBody Request}
    (hDenotes : body.Denotes p body') {frame : Nat} (hFits : ∀ op ∈ body'.code, op.Fits frame)
    {is : List Instruction} (hLower : body.code.mapM (Operation.lower r.narrow) = .ok is) :
    List.Forall₂ (fun i op => i.resolve? c.lookup? = some op) is (actions body'.code) := by
  have hCode := (List.forall₂_and_left _ _).mpr ⟨hFits, hDenotes.code.flip⟩
  rw [actions, List.forall₂_map_right_iff]
  refine (Pairing.comp hCode (mapM_eq_ok_iff.mp hLower) ?_).flip
  rintro op' op i ⟨hFits, hAgrees⟩ hLower
  have hFinds : op.Agrees (Operation.Finds r.narrow c.lookup?) (op'.map Request.referent) :=
    Operation.Agrees.map hAgrees fun _ _ _ hSlot => h.finds hOrders hSlot
  obtain ⟨i', hLower', hResolve⟩ := Operation.exists_lower hFinds
    (Operation.Agrees.fits hAgrees hFits).encodable
  obtain rfl := Except.ok.inj (hLower.symm.trans hLower')
  exact hResolve

/-- The code of a stored method ends as the code that was asked for ends. -/
theorem exists_code_of_stored {m : MethodDefinition} {body : MethodBody Request}
    {entry : MethodEntry} (hDenotes : m.body.Denotes p body) {frame : Nat}
    (hFits : ∀ op ∈ body.code, op.Fits frame) (hStored : MethodStored r.narrow m entry) :
    ∃ code is, entry.code = some code ∧ code.instructions = .ok is ∧
      code.registers = body.registers ∧ code.ins = body.ins ∧
      ∀ (Ω : Type) [DecidableEq Ω] (world : World Ω) (s : State Ω) (halt : Halt Ω),
        world.performAll s (actions body.code) = .error halt →
        world.run c (is.toList.map Prod.snd) s = halt := by
  obtain ⟨code, hCode, -, hStores⟩ := hStored.code
  obtain ⟨is, hLower, hInstructions⟩ := hStores.instructions
  have hResolves := h.resolves_code hOrders hDenotes hFits hLower
  refine ⟨code, _, hCode, hInstructions, hStores.registers.trans hDenotes.registers,
    hStores.ins.trans hDenotes.ins, fun Ω _ world s halt hPerform => ?_⟩
  rw [CodeItem.map_snd_positioned]
  exact world.run_eq hResolves hPerform

theorem delegates_of_stored {binding : HandlerBinding} {d : ClassDescription} {spec : MethodSpec}
    {ordinal : Nat} {m : MethodDefinition} {entry : MethodEntry}
    (hBody : ProxyClass.DescribesBody binding d (spec, ordinal) p m.body)
    (hStored : MethodStored r.narrow m entry) :
    entry.Delegates c binding d.name spec ordinal := by
  have hMethod := hBody.method
  obtain ⟨body, hBody, hDenotes⟩ := hBody
  obtain ⟨handler, hBodied⟩ := Delegation.body_eq_ok hBody
  obtain ⟨code, is, hCode, hInstructions, hRegisters, hIns, hRuns⟩ :=
    h.exists_code_of_stored hOrders hDenotes hBodied.fits hStored
  refine ⟨h.lookup_of_place hOrders m.body.method hStored.method hMethod, code, is, hCode,
    hInstructions, ?_⟩
  intro Ω _ world proxy args hArgs
  have hRun := hRuns Ω world _ _ (performAll_body world hBodied proxy hArgs)
  dsimp only
  rw [hRegisters, hIns, hRun]
  exact ⟨world.delegate_ne_stuck _ _ _ _ _ _, rfl⟩

theorem constructs_of_stored {binding : HandlerBinding} {d : ClassDescription}
    {body : MethodBody Request} {m : MethodDefinition} {entry : MethodEntry}
    (hBody : Delegation.constructorBody ⟨d.name, binding⟩ d.superclass = .ok body)
    (hDenotes : m.body.Denotes p body) (hStored : MethodStored r.narrow m entry) :
    entry.Constructs c binding d.name d.superclass := by
  obtain ⟨code, is, hCode, hInstructions, hRegisters, hIns, hRuns⟩ :=
    h.exists_code_of_stored hOrders hDenotes (Delegation.fits_of_constructorBody hBody) hStored
  refine ⟨?_, code, is, hCode, hInstructions, ?_⟩
  · refine (h.lookup_of_place hOrders m.body.method hStored.method hDenotes.method).trans ?_
    obtain ⟨name, hName, rfl⟩ := Delegation.constructorBody_eq_ok hBody
    have hText : (ProtoDescriptor.mk .void [.ofClass name]).text =
        "(" ++ binding.handler ++ ")V" := by
      rw [← HandlerBinding.text_ofClass_of_handlerClass hName]
      change "(" ++ ("" ++ _) ++ ")" ++ "V" = _
      rw [String.empty_append, String.append_assoc]
      rfl
    exact congrArg (fun text => Except.ok (MemberRef.mk d.name "<init>" text)) hText
  · intro Ω _ world proxy handler
    rw [hRegisters, hIns]
    exact hRuns Ω world _ _ (performAll_constructorBody world hBody proxy handler)

end Container.Shows

namespace HandlerBinding

/-- Every virtual method of a synthesized class delegates faithfully, and there is one for each
specification of the description. -/
theorem delegates_of_synthesize {binding : HandlerBinding} {d : ClassDescription} {s : Synthesized}
    (h : binding.synthesize d = .ok s) :
    ∃ (c : Container) (cls : ClassDef) (data : ClassData) (specs : List MethodSpec)
      (order : List (MethodSpec × Nat)),
      Container.load s.bytes = .ok c ∧ c.classes.toList = [cls] ∧
      c.typeText cls.type = .ok d.name ∧ cls.data = some data ∧ d.specs = .ok specs ∧
      order.Perm specs.zipIdx ∧
      List.Forall₂ (fun spec entry =>
        MethodEntry.Delegates c binding d.name spec.1 spec.2 entry) order data.virtualMethods := by
  obtain ⟨p, r, c, definition, cls, hOrders, hLoad, hShows, hClasses, hDescribes, hClass⟩ :=
    exists_stored h
  obtain ⟨specs, hSpecs, hMethods⟩ := hDescribes.virtualMethods
  obtain ⟨declared, data, hData, hMembers, hSorts, -⟩ := hClass.members
  have hDeclared : List.Forall₂ (fun entry spec =>
      MethodEntry.Delegates c binding d.name spec.1 spec.2 entry) declared.virtualMethods
      specs.zipIdx :=
    (Pairing.comp hMethods hMembers.virtualMethods fun _ _ _ hMethod hStored =>
      hShows.delegates_of_stored hOrders hMethod.2 hStored).flip
  obtain ⟨order, hOrder, hOrderPerm⟩ :=
    List.perm_comp_forall₂ hSorts.virtualMethods.perm hDeclared
  exact ⟨c, cls, data, specs, order, hLoad, hClasses,
    hShows.lookup_of_place hOrders definition.type hClass.type hDescribes.type, hData,
    ProxyClass.specs_of_plan hSpecs, hOrderPerm, hOrder.flip⟩

/-- A synthesized class has one constructor. It calls that of the superclass and keeps the handler in
the field from which the virtual methods take it. -/
theorem constructs_of_synthesize {binding : HandlerBinding} {d : ClassDescription} {s : Synthesized}
    (h : binding.synthesize d = .ok s) :
    ∃ (c : Container) (cls : ClassDef) (data : ClassData) (entry : MethodEntry),
      Container.load s.bytes = .ok c ∧ c.classes.toList = [cls] ∧ cls.data = some data ∧
      data.directMethods = [entry] ∧ entry.Constructs c binding d.name d.superclass := by
  obtain ⟨p, r, c, definition, cls, hOrders, hLoad, hShows, hClasses, hDescribes, hClass⟩ :=
    exists_stored h
  obtain ⟨constructor, body, hMethods, hBody, hDenotes⟩ := hDescribes.directMethods
  obtain ⟨declared, data, hData, hMembers, hSorts, -⟩ := hClass.members
  obtain ⟨entry, hEntry, hStored⟩ :=
    exists_of_sorts_singleton (hMethods ▸ hMembers.directMethods) hSorts.directMethods
  exact ⟨c, cls, data, entry, hLoad, hClasses, hData, hEntry,
    hShows.constructs_of_stored hOrders hBody hDenotes hStored⟩

theorem delegates_ledger : ∃ (s : Synthesized) (c : Container) (data : ClassData),
    HandlerBinding.reflect.synthesize .ledger = .ok s ∧ Container.load s.bytes = .ok c ∧
      data.virtualMethods.length = 3 ∧ ∀ entry ∈ data.virtualMethods, ∃ spec ordinal,
        MethodEntry.Delegates c .reflect "Lbank/Ledger;" spec ordinal entry := by
  obtain ⟨s, hSynthesized⟩ := exists_synthesize_ledger
  obtain ⟨c, cls, data, specs, order, hLoad, -, -, -, hSpecs, hPerm, hMethods⟩ :=
    delegates_of_synthesize hSynthesized
  have hCount : ClassDescription.ledger.overridable.length = 3 := by decide
  refine ⟨s, c, data, hSynthesized, hLoad, ?_, ?_⟩
  · rw [← hMethods.length_eq, hPerm.length_eq, List.length_zipIdx,
      ← (ClassDescription.specs_eq_ok_iff.mp hSpecs).length_eq, hCount]
  · intro entry hEntry
    obtain ⟨spec, -, hDelegates⟩ := Pairing.exists_of_mem_right hMethods hEntry
    exact ⟨spec.1, spec.2, hDelegates⟩

end HandlerBinding

end DexForge
