import DexForge.Proofs.Proxy.Narrowest

/-! # The discipline of delegating methods

A delegating method is refused for its registers exactly when they are too many. Otherwise it uses
its frame as declared: each call passes as many registers as its callee takes, each result is fetched
right behind a call that has such a result, and the only return is at the end.
-/
set_option autoImplicit false

namespace DexForge

/-- How a value is handed over: not at all, in one register, in two, or as a reference. -/
inductive ValueForm where
  | nothing
  | single
  | wide
  | reference
deriving DecidableEq

def TypeDescriptor.form (type : TypeDescriptor) : ValueForm :=
  if type.isVoid then .nothing
  else match type.primitive? with
    | some p => if p.isWide then .wide else .single
    | none => .reference

def InvokeKind.receivers : InvokeKind → Nat
  | .static => 0
  | _ => 1

namespace Operation

variable {ρ σ : TableName → Type}

def resultForm? : Operation ρ → Option ValueForm
  | moveResult _ => some .single
  | moveResultWide _ => some .wide
  | moveResultObject _ => some .reference
  | _ => none

def returnForm? : Operation ρ → Option ValueForm
  | returnVoid => some .nothing
  | returnValue _ => some .single
  | returnWide _ => some .wide
  | returnObject _ => some .reference
  | _ => none

def isPlain : Operation ρ → Bool
  | moveObject _ _ | const _ _ | constString _ _ | checkCast _ _ | newArray _ _ _ | agetObject _ _ _
  | aputObject _ _ _ | igetObject _ _ _ | iputObject _ _ _ | sgetObject _ _ => true
  | _ => false

theorem resultForm?_of_isPlain {op : Operation ρ} (h : op.isPlain = true) :
    op.resultForm? = none := by
  cases op <;> first | rfl | cases h

theorem returnForm?_of_isPlain {op : Operation ρ} (h : op.isPlain = true) :
    op.returnForm? = none := by
  cases op <;> first | rfl | cases h

theorem returnForm?_of_resultForm? {op : Operation ρ} {form : ValueForm}
    (h : op.resultForm? = some form) : op.returnForm? = none := by
  cases op <;> first | rfl | cases h

theorem Agrees.resultForm?_eq {R : ∀ t, ρ t → σ t → Prop} {a : Operation ρ} {b : Operation σ}
    (h : a.Agrees R b) : a.resultForm? = b.resultForm? := by
  cases h <;> rfl

theorem Agrees.returnForm?_eq {R : ∀ t, ρ t → σ t → Prop} {a : Operation ρ} {b : Operation σ}
    (h : a.Agrees R b) : a.returnForm? = b.returnForm? := by
  cases h <;> rfl

/-- The call passes what a callee with the prototype takes, and no more than `outs` registers. -/
structure Passes (callee : ρ .method → ProtoDescriptor → Prop) (outs : Nat) (kind : InvokeKind)
    (method : ρ .method) (args : List UInt16) (proto : ProtoDescriptor) : Prop where
  callee : callee method proto
  length_eq : args.length = kind.receivers + proto.paramWidth
  length_le : args.length ≤ outs

/-- Code without a return, in which `callee` tells the prototypes of the methods called. -/
structure Orderly (callee : ρ .method → ProtoDescriptor → Prop) (outs : Nat)
    (code : List (Operation ρ)) : Prop where
  calls : ∀ kind method args, .invoke kind method args ∈ code →
    ∃ proto, Passes callee outs kind method args proto
  results : ∀ k op form, code[k]? = some op → op.resultForm? = some form →
    ∃ j kind method args proto, k = j + 1 ∧ code[j]? = some (.invoke kind method args) ∧
      callee method proto ∧ proto.returns.form = form
  continues : ∀ op ∈ code, op.returnForm? = none

section

variable {callee : ρ .method → ProtoDescriptor → Prop} {outs : Nat} {code code' : List (Operation ρ)}

theorem Orderly.append (h : Orderly callee outs code) (h' : Orderly callee outs code') :
    Orderly callee outs (code ++ code') where
  calls kind method args hMem := by
    obtain hMem | hMem := List.mem_append.mp hMem
    · exact h.calls kind method args hMem
    · exact h'.calls kind method args hMem
  results k op form hOp hForm := by
    obtain hk | hk := Nat.lt_or_ge k code.length
    · rw [List.getElem?_append_left hk] at hOp
      obtain ⟨j, kind, method, args, proto, rfl, hCall, hRest⟩ := h.results k op form hOp hForm
      refine ⟨j, kind, method, args, proto, rfl, ?_, hRest⟩
      rw [List.getElem?_append_left (Nat.lt_of_succ_lt hk)]
      exact hCall
    · -- a result in the second part has its call there too, never at the end of the first
      rw [List.getElem?_append_right hk] at hOp
      obtain ⟨j, kind, method, args, proto, hj, hCall, hRest⟩ := h'.results _ op form hOp hForm
      refine ⟨code.length + j, kind, method, args, proto, by omega, ?_, hRest⟩
      rw [List.getElem?_append_right (Nat.le_add_right _ _), Nat.add_sub_cancel_left]
      exact hCall
  continues := List.forall_mem_append.mpr ⟨h.continues, h'.continues⟩

theorem orderly_of_isPlain (h : code.all isPlain = true) : Orderly callee outs code := by
  rw [List.all_eq_true] at h
  refine ⟨?_, ?_, fun op hOp => returnForm?_of_isPlain (h op hOp)⟩
  · intro kind method args hMem
    cases h _ hMem
  · intro k op form hOp hForm
    rw [resultForm?_of_isPlain (h op (List.mem_of_getElem? hOp))] at hForm
    cases hForm

variable {kind : InvokeKind} {method : ρ .method} {args : List UInt16} {proto : ProtoDescriptor}

theorem orderly_call (h : Passes callee outs kind method args proto) :
    Orderly callee outs [.invoke kind method args] := by
  refine ⟨?_, ?_, List.forall_mem_singleton.mpr rfl⟩
  · intro kind' method' args' hMem
    cases List.mem_singleton.mp hMem
    exact ⟨proto, h⟩
  · intro k op form hOp hForm
    obtain rfl := List.mem_singleton.mp (List.mem_of_getElem? hOp)
    cases hForm

theorem orderly_callResult (h : Passes callee outs kind method args proto) (op : Operation ρ)
    (hForm : op.resultForm? = some proto.returns.form) :
    Orderly callee outs [.invoke kind method args, op] := by
  refine ⟨?_, ?_, ?_⟩
  · intro kind' method' args' hMem
    obtain hCall | hCall := List.mem_pair.mp hMem
    · cases hCall
      exact ⟨proto, h⟩
    · subst hCall
      cases hForm
  · intro k op' form hOp hForm'
    match k, hOp with
    | 0, hOp =>
      cases hOp
      cases hForm'
    | 1, hOp =>
      cases hOp
      rw [hForm, Option.some.injEq] at hForm'
      exact ⟨0, kind, method, args, proto, rfl, rfl, h.callee, hForm'⟩
  · rw [List.forall_mem_cons, List.forall_mem_singleton]
    exact ⟨rfl, returnForm?_of_resultForm? hForm⟩

theorem Orderly.of_agrees {callee' : σ .method → ProtoDescriptor → Prop}
    {R : ∀ t, ρ t → σ t → Prop} {other : List (Operation σ)} (h : Orderly callee' outs other)
    (hCallee : ∀ x y proto, R .method x y → callee' y proto → callee x proto)
    (hCode : List.Forall₂ (Agrees R) code other) : Orderly callee outs code where
  calls kind method args hMem := by
    obtain ⟨op, hOp, hAgrees⟩ := Pairing.exists_of_mem_left hCode hMem
    cases hAgrees with
    | @invoke _ _ method' _ hMethod =>
      obtain ⟨proto, hPasses⟩ := h.calls kind method' args hOp
      exact ⟨proto, hCallee _ _ _ hMethod hPasses.callee, hPasses.length_eq, hPasses.length_le⟩
  results k op form hOp hForm := by
    obtain ⟨op', hOp', hAgrees⟩ := Pairing.getElem?_left hCode hOp
    rw [hAgrees.resultForm?_eq] at hForm
    obtain ⟨j, kind, method', args, proto, rfl, hCall', hProto, hReturns⟩ :=
      h.results k op' form hOp' hForm
    obtain ⟨call, hCall, hAgrees⟩ := Pairing.getElem?_right hCode hCall'
    cases hAgrees with
    | @invoke _ method _ _ hMethod =>
      exact ⟨j, kind, method, args, proto, rfl, hCall, hCallee _ _ _ hMethod hProto, hReturns⟩
  continues op hOp := by
    obtain ⟨op', hOp', hAgrees⟩ := Pairing.exists_of_mem_left hCode hOp
    rw [hAgrees.returnForm?_eq]
    exact h.continues op' hOp'

end

end Operation

def Request.callee : Request .method → ProtoDescriptor
  | .method _ _ descriptor => descriptor

namespace Delegation

open Operation

abbrev Named (r : Request .method) (proto : ProtoDescriptor) : Prop := r.callee = proto

theorem passes_box (p : Primitive) (reg : UInt16) : Passes Named 4 .static
    (.method p.wrapper.text Primitive.boxer (boxProto p))
    (if p.isWide then [reg, reg + 1] else [reg]) (boxProto p) := by
  refine ⟨rfl, ?_, ?_⟩
  · cases p <;> rfl
  · split
    · exact Nat.le_add_left 2 2
    · exact Nat.le_add_left 1 3

theorem orderly_packArgument (position : Nat) (reg : UInt16) (type : TypeDescriptor) :
    Orderly Named 4 (packArgument position reg type) := by
  rw [packArgument]
  cases type.primitive? with
  | none =>
    dsimp only
    split
    · exact orderly_of_isPlain rfl
    · exact orderly_of_isPlain rfl
  | some p =>
    have hIndex : Orderly Named 4 [.const scratchRegister (Int32.ofNat position)] :=
      orderly_of_isPlain rfl
    have hBox := orderly_callResult (passes_box p reg) (.moveResultObject boxedRegister) rfl
    have hStore : Orderly Named 4 [store boxedRegister] := orderly_of_isPlain rfl
    exact (hIndex.append hBox).append hStore

theorem orderly_packFrom (position register : Nat) (params : List TypeDescriptor) :
    Orderly Named 4 (packFrom position register params) := by
  induction params generalizing position register with
  | nil => exact orderly_of_isPlain rfl
  | cons type rest ih => exact (orderly_packArgument _ _ type).append (ih _ _)

theorem orderly_loadIdentity (ctx : Context) (spec : MethodSpec) (ordinal : Nat) :
    Orderly Named 4 (loadIdentity ctx spec ordinal) := by
  rw [loadIdentity]
  cases ctx.binding.identity <;> exact orderly_of_isPlain rfl

theorem passes_callHandler (binding : HandlerBinding) : Passes Named 4 binding.invokeKind
    (.method binding.handler binding.invokeName binding.invokeProto)
    [resultRegister.toUInt16, selfRegister.toUInt16, identityRegister.toUInt16,
      arrayRegister.toUInt16] binding.invokeProto := by
  refine ⟨rfl, ?_, Nat.le_refl 4⟩
  have hReceiver : binding.invokeKind.receivers = 1 := by
    rw [HandlerBinding.invokeKind]
    split <;> rfl
  have hWidth : binding.invokeProto.paramWidth = 3 := by
    rw [HandlerBinding.invokeProto]
    cases binding.identity <;> rfl
  rw [hReceiver, hWidth]
  rfl

theorem passes_unbox (p : Primitive) : Passes Named 4 .virtual
    (.method p.wrapper.text p.unboxer (unboxProto p)) [resultRegister.toUInt16] (unboxProto p) :=
  ⟨rfl, rfl, by decide⟩

theorem form_of_primitive {type : TypeDescriptor} {p : Primitive} (h : type.primitive? = some p) :
    type.form = if p.isWide then .wide else .single := by
  cases type with
  | void => cases h
  | field dims element => simp [TypeDescriptor.form, TypeDescriptor.isVoid, h]

theorem exists_giveBack (binding : HandlerBinding) (type : TypeDescriptor) :
    ∃ front last, callHandler binding :: giveBack type = front ++ [last] ∧
      Orderly Named 4 front ∧ last.returnForm? = some type.form := by
  have hCall := passes_callHandler binding
  have hFetch := orderly_callResult hCall (.moveResultObject resultRegister) rfl
  rw [giveBack]
  split
  · next hVoid =>
    refine ⟨_, .returnVoid, rfl, orderly_call hCall, ?_⟩
    rw [TypeDescriptor.form, if_pos hVoid]
    rfl
  · next hVoid =>
    have hCast : ∀ r, Orderly Named 4 [.checkCast resultRegister r] :=
      fun _ => orderly_of_isPlain rfl
    cases hType : type.primitive? with
    | none =>
      refine ⟨_, .returnObject resultRegister, rfl, hFetch.append (hCast _), ?_⟩
      rw [TypeDescriptor.form, if_neg hVoid, hType]
      rfl
    | some p =>
      have hUnbox := passes_unbox p
      -- the accessor of the wrapper gives the declared type, so that its result is returned as it is
      have hForm : (unboxProto p).returns.form = type.form := by
        rw [form_of_primitive hType, form_of_primitive rfl]
      rw [form_of_primitive hType] at hForm ⊢
      dsimp only
      split
      · next hWide =>
        rw [if_pos hWide] at hForm
        refine ⟨_, .returnWide resultRegister, rfl, (hFetch.append (hCast _)).append
          (orderly_callResult hUnbox (.moveResultWide resultRegister) ?_), rfl⟩
        rw [hForm]
        rfl
      · next hWide =>
        rw [if_neg hWide] at hForm
        refine ⟨_, .returnValue resultRegister, rfl, (hFetch.append (hCast _)).append
          (orderly_callResult hUnbox (.moveResult resultRegister) ?_), rfl⟩
        rw [hForm]
        rfl

variable {ctx : Context} {spec : MethodSpec} {ordinal : Nat} {handler : ClassName}

theorem Bodied.exists_orderly {body : MethodBody Request}
    (h : Bodied ctx spec ordinal handler body) :
    ∃ front last, body.code = front ++ [last] ∧ Orderly Named body.outs.toNat front ∧
      last.returnForm? = some spec.returns.form := by
  obtain ⟨front, last, hEnd, hFront, hLast⟩ := exists_giveBack ctx.binding spec.returns
  have hHandler : Orderly Named 4
      [.igetObject resultRegister selfRegister (ctx.handlerField handler)] := orderly_of_isPlain rfl
  have hArray : Orderly Named 4 (newArguments spec.params.length) := orderly_of_isPlain rfl
  have hPack : Orderly Named 4 (packArguments spec.params) := by
    rw [packArguments_eq]
    exact orderly_packFrom 0 6 spec.params
  have hIdentity := orderly_loadIdentity ctx spec ordinal
  rw [h.eq]
  refine ⟨_, last, ?_, (((hHandler.append hIdentity).append hArray).append hPack).append hFront,
    hLast⟩
  dsimp only
  rw [hEnd]
  simp only [List.append_assoc, List.cons_append, List.nil_append]

/-- The register at which the parameter at position `k` starts, as the loop over the parameters
counts it. -/
def startRegister (params : List TypeDescriptor) (k : Nat) : UInt16 :=
  ((params.take k).foldl Packing.add .start).register

theorem register_foldl_add (params : List TypeDescriptor) (position register : Nat)
    (code : Array (Operation Request)) :
    (params.foldl Packing.add ⟨position, UInt16.ofNat register, code⟩).register =
      UInt16.ofNat (register + (params.map TypeDescriptor.width).sum) := by
  induction params generalizing position register code with
  | nil => rfl
  | cons type rest ih =>
    rw [List.foldl_cons, Packing.add]
    dsimp only
    rw [← UInt16.ofNat_add, ih, List.map_cons, List.sum_cons, Nat.add_assoc]

theorem toNat_startRegister {params : List TypeDescriptor}
    (h : 6 + (params.map TypeDescriptor.width).sum ≤ 65535) (k : Nat) :
    (startRegister params k).toNat = 6 + ((params.take k).map TypeDescriptor.width).sum := by
  have hSplit : (params.map TypeDescriptor.width).sum =
      ((params.take k).map TypeDescriptor.width).sum +
        ((params.drop k).map TypeDescriptor.width).sum := by
    rw [← List.sum_append, ← List.map_append, List.take_append_drop]
  have hRegister := register_foldl_add (params.take k) 0 6 #[]
  rw [startRegister]
  exact (congrArg UInt16.toNat hRegister).trans (toNat_register (by omega))

theorem body_of_large (hValues : ∀ type ∈ spec.params, type.isVoid = false)
    (hLarge : 65535 < 6 + spec.proto.paramWidth) :
    body ctx spec ordinal = .error (if 6 + spec.proto.paramWidth < 0x100000000 then
      .unsupportedSignature spec.signature .registers else .arithmeticOverflow) := by
  have hMade := made_body ctx spec ordinal
  generalize body ctx spec ordinal = result at hMade
  cases hMade with
  | voidParameter _ hMem hVoid =>
    rw [hValues _ hMem] at hVoid
    cases hVoid
  | overflow hUncounted => rw [if_neg (Nat.not_lt.mpr hUncounted)]
  | registers _ _ hCounted => rw [if_pos hCounted]
  | ordinal hFrame _ | handler hFrame _ _ => omega
  | body h => exact absurd h.registers_lt (by omega)

variable {p : Pools}

theorem yields_encode (hp : p.WellFormed) (ctx : Context) (spec : MethodSpec) (ordinal : Nat) :
    Script.Yields (fun p' a _ => ∃ requested, body ctx spec ordinal = .ok requested ∧
        MethodBody.Denotes p' a requested) ((encode ctx spec ordinal).run p).2
      (Recipe.ofExcept (body ctx spec ordinal) >>= MethodBody.recipe)
      ((encode ctx spec ordinal).run p).1 :=
  (List.forall₂_cons.mp ((follows_encode hp ctx spec ordinal).run hp).yields).1

theorem run_encode_eq_registers_iff (hp : p.WellFormed) :
    ((encode ctx spec ordinal).run p).1 =
        .error (.unsupportedSignature spec.signature .registers) ↔
      (∀ type ∈ spec.params, type.isVoid = false) ∧
        65535 < 6 + spec.proto.paramWidth ∧ 6 + spec.proto.paramWidth < 0x100000000 := by
  constructor
  · intro hRun
    have hYields := yields_encode hp ctx spec ordinal
    rw [hRun] at hYields
    have hOutcome := hYields.outcome_of_error
    have hMade := made_body ctx spec ordinal
    cases hBody : body ctx spec ordinal with
    | error e =>
      rw [hBody] at hMade
      rw [hBody, Recipe.bind_of_error rfl, Except.error.injEq] at hOutcome
      subst hOutcome
      cases hMade with
      | registers hValues hLarge hCounted => exact ⟨hValues, hLarge, hCounted⟩
    | ok requested =>
      -- once there is a body, only a text that is too long is refused
      rw [hBody, Recipe.bind_of_ok rfl] at hOutcome
      obtain ⟨units, hLong⟩ := requested.fails_recipe _ hOutcome
      cases hLong
  · rintro ⟨hValues, hLarge, hCounted⟩
    rw [encode, body_of_large hValues hLarge, if_pos hCounted]
    rfl

end Delegation

def Pools.HasProto (p : Pools) (slot : Slot .method) (proto : ProtoDescriptor) : Prop :=
  ∃ owner name, p.methodTexts? slot = some ⟨owner, name, proto.texts⟩

/-- The body uses its frame as the method declares it, and has instructions in all tables that the
pools are finished to. -/
structure MethodBody.Disciplined (p : Pools) (spec : MethodSpec) (body : MethodBody Slot) :
    Prop where
  ins : body.ins.toNat = 1 + (spec.params.map TypeDescriptor.width).sum
  registers : body.registers.toNat = body.ins.toNat + 5
  inFrame : ∀ op ∈ body.code, ∀ reg ∈ op.registers, reg < body.registers
  lowers : ∀ (later : List Call) (tables : Tables), (later.foldl Pools.call p).finish = .ok tables →
    ∀ op ∈ body.code, ∃ i, op.lower tables = .ok i
  flow : ∃ front last, body.code = front ++ [last] ∧
    Operation.Orderly p.HasProto body.outs.toNat front ∧
    last.returnForm? = some spec.returns.form

namespace Delegation

open Operation

theorem hasProto_of_denotes {p : Pools} {slot : Slot .method} {r : Request .method}
    {proto : ProtoDescriptor} (h : Script.Denotes p slot r) (hProto : Named r proto) :
    p.HasProto slot proto := by
  cases r with
  | method owner name descriptor =>
    obtain rfl : descriptor = proto := hProto
    exact ⟨owner, name, h⟩

variable {ctx : Context} {spec : MethodSpec} {ordinal : Nat} {handler : ClassName} {p : Pools}
  {requested : MethodBody Request} {body : MethodBody Slot}

theorem exists_lower_of_denotes {p' : Pools} (hExtends : p.Extends p') {tables : Tables}
    (hFinish : p'.finish = .ok tables) {op : Operation Slot} {asked : Operation Request}
    (h : op.Denotes p asked) (hEncodable : op.Encodable) : ∃ i, op.lower tables = .ok i := by
  obtain ⟨action, hAction⟩ := exists_indexed hFinish fun t slot hSlot => by
    obtain ⟨r, hDenotes⟩ := h.exists_related hSlot
    exact Pools.covers_of_contents? (hExtends.contents? hDenotes)
  obtain ⟨i, hLower, -⟩ := exists_lower_indexed hAction hEncodable
  exact ⟨i, hLower⟩

theorem Bodied.disciplined (h : Bodied ctx spec ordinal handler requested) (hp : p.WellFormed)
    (hDenotes : body.Denotes p requested) : body.Disciplined p spec := by
  have hFits : ∀ op ∈ body.code, op.Fits body.registers.toNat := by
    intro op hOp
    obtain ⟨asked, hAsked, hAgrees⟩ := Pairing.exists_of_mem_left hDenotes.code hOp
    rw [hDenotes.registers]
    exact hAgrees.fits (h.fits asked hAsked)
  have hIns : body.ins.toNat = 1 + spec.proto.paramWidth := by
    rw [hDenotes.ins]
    exact h.toNat_ins
  refine ⟨?_, ?_, fun op hOp => (hFits op hOp).registers, ?_, ?_⟩
  · exact hIns
  · rw [hIns, hDenotes.registers, h.toNat_registers]
    omega
  · intro later tables hFinish op hOp
    obtain ⟨asked, -, hAgrees⟩ := Pairing.exists_of_mem_left hDenotes.code hOp
    exact exists_lower_of_denotes (Pools.extends_foldl hp) hFinish hAgrees (hFits op hOp).encodable
  · obtain ⟨front, last, hCode, hFront, hLast⟩ := h.exists_orderly
    -- interning keeps the operations one by one, so the return is cut off at the same place
    have hAll := hDenotes.code
    rw [hCode] at hAll
    have hEnd := List.forall₂_drop_append _ _ _ hAll
    obtain ⟨op, rest, hOp, hNil, hDrop⟩ := List.forall₂_cons_right_iff.mp hEnd
    obtain rfl := List.forall₂_nil_right_iff.mp hNil
    refine ⟨body.code.take front.length, op, ?_, ?_, hOp.returnForm?_eq.trans hLast⟩
    · rw [← hDrop, List.take_append_drop]
    · rw [hDenotes.outs]
      exact hFront.of_agrees (fun _ _ _ => hasProto_of_denotes)
        (List.forall₂_take_append _ _ _ hAll)

theorem exists_of_run_encode (hp : p.WellFormed) {p' : Pools}
    (h : (encode ctx spec ordinal).run p = (.ok body, p')) :
    p'.WellFormed ∧ ∃ requested, Delegation.body ctx spec ordinal = .ok requested ∧
      body.Denotes p' requested := by
  have hRun := (follows_encode hp ctx spec ordinal).run hp
  rw [h] at hRun
  obtain ⟨-, -, hRequested⟩ := (List.forall₂_cons.mp hRun.yields).1.exists_of_ok
  exact ⟨hRun.wellFormed, hRequested⟩

/-- A method with a wide parameter and a wide result. -/
def transfer : MethodSpec :=
  ⟨"transfer", ⟨.ofPrimitive .double, [.ofPrimitive .long, .object]⟩, .isPublic⟩

def ledgerContext : Context := ⟨"Lbank/Ledger;", .new HandlerBinding.invocationHandler .index⟩

def allLong (count : Nat) : MethodSpec :=
  ⟨"m", ⟨.void, List.replicate count (.ofPrimitive .long)⟩, .isPublic⟩

theorem sum_width_allLong (count : Nat) :
    ((allLong count).params.map TypeDescriptor.width).sum = 2 * count := by
  have hWidth : TypeDescriptor.width (.ofPrimitive .long) = 2 := rfl
  rw [allLong, MethodSpec.params, List.map_replicate, List.sum_replicate_nat, hWidth, Nat.mul_comm]

theorem encode_allLong {count : Nat} (h : 0x100000000 ≤ 6 + 2 * count) (p : Pools) :
    ((encode ledgerContext (allLong count) 0).run p).1 = .error .arithmeticOverflow := by
  have hWidth : (allLong count).proto.paramWidth = 2 * count := sum_width_allLong count
  have hValues : ∀ type ∈ (allLong count).params, type.isVoid = false := by
    intro type hMem
    obtain ⟨-, rfl⟩ := List.mem_replicate.mp hMem
    rfl
  rw [encode, body_of_large hValues (by omega), if_neg (by omega)]
  rfl

end Delegation

end DexForge
