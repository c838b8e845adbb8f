import DexForge.Proofs.Descriptor.Prototypes
import DexForge.Proofs.Synthesis.Delegation

/-! # Signatures as identities

No name has a parenthesis in it, so a signature can be taken apart again. A handler that is told the
signature of the called method is told which of the methods of its class that was.
-/
set_option autoImplicit false

namespace DexForge

open DexForge.Except

theorem Name.parenthesis_not_mem {name : String} (h : isSimple name = true) :
    '(' ∉ name.toList := by
  intro hMem
  obtain ⟨-, hSimple⟩ := (isSimpleList_iff name).mp h
  have hParenthesis := (isSimpleChar_iff '(').mpr (hSimple _ hMem)
  exact absurd hParenthesis (by decide)

namespace MethodSpec

/-- What is in front of the first parenthesis, and the prototype that starts with it. -/
def ofSignature? (text : String) : Option (String × ProtoDescriptor) :=
  let name := text.toList.takeWhile (· != '(')
  match ProtoDescriptor.parse (String.ofList (text.toList.drop name.length)) with
  | .ok proto => some (String.ofList name, proto)
  | .error _ => none

theorem ofSignature?_eq_some_iff {text name : String} {proto : ProtoDescriptor} :
    ofSignature? text = some (name, proto) ↔
      '(' ∉ name.toList ∧ (∀ type ∈ proto.params, type ≠ .void) ∧ name ++ proto.text = text := by
  rw [ofSignature?]
  constructor
  · intro h
    split at h
    · next parsed hParse =>
      cases h
      obtain ⟨hValues, hText⟩ := ProtoDescriptor.parse_eq_ok_iff.mp hParse
      refine ⟨?_, hValues, ?_⟩
      · intro hMem
        rw [String.toList_ofList] at hMem
        have hBefore := List.all_eq_true.mp List.all_takeWhile _ hMem
        simp at hBefore
      · rw [hText, ← String.toList_inj, String.toList_append, String.toList_ofList,
          String.toList_ofList, append_drop_takeWhile]
    · cases h
  · rintro ⟨hName, hValues, rfl⟩
    have hBehind : proto.text.toList = '(' :: proto.text.toList.tail := by
      rw [ProtoDescriptor.toList_text]
      rfl
    have hBefore : (name ++ proto.text).toList.takeWhile (· != '(') = name.toList := by
      rw [String.toList_append, hBehind, takeWhile_until hName]
    have hParse : ProtoDescriptor.parse proto.text = .ok proto :=
      ProtoDescriptor.parse_eq_ok_iff.mpr ⟨hValues, rfl⟩
    rw [hBefore, String.toList_append, List.drop_left, String.ofList_toList, String.ofList_toList,
      hParse]

end MethodSpec

namespace MethodDescription.Reads

variable {m m' : MethodDescription} {spec spec' : MethodSpec}

theorem ofSignature?_signature (h : m.Reads spec) :
    MethodSpec.ofSignature? spec.signature = some (spec.name, spec.proto) := by
  rw [MethodSpec.ofSignature?_eq_some_iff]
  refine ⟨?_, ?_, rfl⟩
  · rw [h.name]
    exact Name.parenthesis_not_mem h.simple
  · intro type hType hVoid
    have hValue := h.values type hType
    rw [hVoid] at hValue
    cases hValue

theorem signature_eq_iff (h : m.Reads spec) (h' : m'.Reads spec') :
    spec.signature = spec'.signature ↔ spec.name = spec'.name ∧ spec.proto = spec'.proto := by
  constructor
  · intro hSame
    have hParts := h.ofSignature?_signature
    rw [hSame, h'.ofSignature?_signature] at hParts
    obtain ⟨hName, hProto⟩ := Prod.mk.inj (Option.some.inj hParts)
    exact ⟨hName.symm, hProto.symm⟩
  · rintro ⟨hName, hProto⟩
    rw [MethodSpec.signature, hName, hProto, MethodSpec.signature]

end MethodDescription.Reads

namespace ClassDescription

variable {d : ClassDescription} {specs : List MethodSpec}

theorem exists_reads (h : d.specs = .ok specs) {spec : MethodSpec} (hSpec : spec ∈ specs) :
    ∃ m : MethodDescription, m.Reads spec := by
  obtain ⟨m, -, hReads, -⟩ := Pairing.exists_of_mem_right (specs_eq_ok_iff.mp h) hSpec
  exact ⟨m, hReads⟩

theorem nodup_signatures (h : d.specs = .ok specs)
    (hDistinct : (d.overridable.map fun m => (m.name, m.params, m.returns)).Nodup) :
    (specs.map MethodSpec.signature).Nodup := by
  have hDeclared : ∀ m ∈ d.overridable, m.Reads m.declared := fun m hm =>
    (exists_specs_iff.mp ⟨specs, h⟩ m hm).reads_declared
  rw [eq_declared_of_specs h, List.map_map, List.Nodup, List.pairwise_map]
  rw [List.Nodup, List.pairwise_map] at hDistinct
  refine hDistinct.imp_of_mem fun {m m'} hm hm' hOther hSame => hOther ?_
  have hParts := ((hDeclared m hm).signature_eq_iff (hDeclared m' hm')).mp hSame
  exact ((hDeclared m hm).name_proto_eq_iff (hDeclared m' hm')).mp (Prod.ext hParts.1 hParts.2)

end ClassDescription

namespace Operation

variable {ρ σ : TableName → Type}

def stringConstant? : Operation ρ → Option (UInt8 × ρ .string)
  | constString dst x => some (dst, x)
  | _ => none

theorem stringConstant?_map (f : ∀ {t}, ρ t → σ t) (op : Operation ρ) :
    (op.map f).stringConstant? = op.stringConstant?.map fun c => (c.1, f c.2) := by
  cases op <;> rfl

theorem stringConstants_eq_nil {ops : List (Operation ρ)}
    (h : ∀ x ∈ ops.filterMap reference?, x.1 ≠ .string) : ops.filterMap stringConstant? = [] := by
  rw [List.filterMap_eq_nil_iff]
  intro op hOp
  cases op with
  | constString dst x => exact absurd rfl (h ⟨.string, x⟩ (List.mem_filterMap.mpr ⟨_, hOp, rfl⟩))
  | _ => rfl

end Operation

namespace Delegation

variable {ctx : Context} {spec : MethodSpec}

theorem stringConstants_packFrom (position register : Nat) (params : List TypeDescriptor) :
    (packFrom position register params).filterMap Operation.stringConstant? = [] := by
  apply Operation.stringConstants_eq_nil
  rw [references_packFrom]
  intro x hx
  obtain ⟨type, -, hCall⟩ := List.mem_flatMap.mp hx
  obtain ⟨p, -, rfl⟩ := List.mem_map.mp hCall
  exact nofun

theorem stringConstants_giveBack (type : TypeDescriptor) :
    (giveBack type).filterMap Operation.stringConstant? = [] := by
  apply Operation.stringConstants_eq_nil
  rw [references_giveBack, resultCalls]
  split
  · simp
  · cases type.primitive? <;> simp

/-- Under the identity by name, the one string constant of a body is the signature. -/
theorem Bodied.stringConstants {ordinal : Nat} {handler : ClassName} {body : MethodBody Request}
    (h : Bodied ctx spec ordinal handler body) (hIdentity : ctx.binding.identity = .name) :
    body.code.filterMap Operation.stringConstant? =
      [(identityRegister, .string spec.signature)] := by
  rw [h.eq, loadIdentity, hIdentity, packArguments_eq]
  simp only [newArguments, callHandler, List.filterMap_append, List.filterMap_cons,
    Operation.stringConstant?, stringConstants_packFrom, stringConstants_giveBack, List.cons_append,
    List.nil_append]

end Delegation

namespace Machine

theorem stringConstants_actions (code : List (Operation Request)) :
    (actions code).filterMap Operation.stringConstant? =
      (code.filterMap Operation.stringConstant?).map fun x => (x.1, x.2.referent) := by
  rw [actions, List.filterMap_map, List.map_filterMap]
  congr 1
  funext op
  exact Operation.stringConstant?_map _ op

theorem World.calls_delegate {Ω : Type} (world : World Ω) {binding : HandlerBinding}
    (h : binding.identity = .name) (owner : String) (spec : MethodSpec) (ordinal : Nat) (proxy : Ω)
    (args : List (Argument Ω)) : (world.delegate binding owner spec ordinal proxy args).calls =
      [world.handlerCall binding owner (.ref (.object (world.text spec.signature))) proxy
        args] := by
  rw [delegate, identity, h]
  rfl

end Machine

open Machine

/-- `entry` is the method with the specification `spec`. Its code loads one string constant, the
signature, and whenever it is run it passes that to the handler. -/
structure MethodEntry.Signed (c : Container) (owner : String) (spec : MethodSpec)
    (entry : MethodEntry) : Prop where
  texts : c.methodTexts entry.method = .ok ⟨owner, spec.name, spec.proto.texts⟩
  code : ∃ code is ops, entry.code = some code ∧ code.instructions = .ok is ∧
    (is.toList.map Prod.snd).mapM (Instruction.resolve? c.lookup?) = some ops ∧
    ops.filterMap Operation.stringConstant? = [(Delegation.identityRegister, spec.signature)] ∧
    ∀ (Ω : Type) [DecidableEq Ω] (world : World Ω) (proxy : Ω) (args : List (Argument Ω)),
      List.Forall₂ Argument.Suits args spec.params →
      ∃ call, (world.run c (is.toList.map Prod.snd)
          (.entry code.registers.toNat code.ins.toNat proxy args)).calls = [call] ∧
        call.args[2]? = some (.ref (.object (world.text spec.signature)))

namespace Container.Shows

open Image

variable {p : Pools} {r : Ranking} {c : Container} (h : c.Shows r) (hOrders : r.Orders p)
include h hOrders

theorem signed_of_stored {binding : HandlerBinding} (hIdentity : binding.identity = .name)
    {d : ClassDescription} {spec : MethodSpec} {ordinal : Nat} {m : MethodDefinition}
    {entry : MethodEntry} (hBody : ProxyClass.DescribesBody binding d (spec, ordinal) p m.body)
    (hStored : MethodStored r.narrow m entry) : entry.Signed c d.name spec := by
  have hTexts := h.methodTexts_of_place hOrders m.body.method hStored.method hBody.method
  obtain ⟨code, is, hCode, hInstructions, hRun⟩ :=
    (h.delegates_of_stored hOrders hBody hStored).code
  obtain ⟨body, hBody, hDenotes⟩ := hBody
  obtain ⟨handler, hBodied⟩ := Delegation.body_eq_ok hBody
  obtain ⟨code', hCode', -, hStores⟩ := hStored.code
  obtain rfl := Option.some.inj (hCode.symm.trans hCode')
  obtain ⟨is', hLower, hInstructions'⟩ := hStores.instructions
  obtain rfl := Except.ok.inj (hInstructions.symm.trans hInstructions')
  have hResolves := h.resolves_code hOrders hDenotes hBodied.fits hLower
  refine ⟨hTexts, code, _, actions body.code, hCode, hInstructions, ?_, ?_, ?_⟩
  · rw [CodeItem.map_snd_positioned]
    exact Pairing.mapM_eq_some_iff.mpr hResolves
  · rw [stringConstants_actions, hBodied.stringConstants hIdentity]
    rfl
  · intro Ω _ world proxy args hArgs
    rw [(hRun Ω world proxy args hArgs).2, world.calls_delegate hIdentity]
    exact ⟨_, rfl, rfl⟩

end Container.Shows

namespace HandlerBinding

/-- A signature tells the name and the prototype that it is made of, so two methods of a class have
the same one only when they agree in both. Under the identity by name every method of a synthesized
class passes the handler its signature, and no two of them the same. -/
theorem signatures_unambiguous (binding : HandlerBinding) (d : ClassDescription) :
    (∀ specs, d.specs = .ok specs → ∀ a ∈ specs,
      MethodSpec.ofSignature? a.signature = some (a.name, a.proto) ∧
      ∀ b ∈ specs, a.signature = b.signature ↔ a.name = b.name ∧ a.proto = b.proto) ∧
    ∀ s, binding.identity = .name → binding.synthesize d = .ok s →
      ∃ (c : Container) (cls : ClassDef) (data : ClassData) (specs order : List MethodSpec),
        Container.load s.bytes = .ok c ∧ c.classes.toList = [cls] ∧ cls.data = some data ∧
        d.specs = .ok specs ∧ order.Perm specs ∧
        List.Forall₂ (MethodEntry.Signed c d.name) order data.virtualMethods ∧
        (order.map MethodSpec.signature).Nodup := by
  constructor
  · intro specs hSpecs a ha
    obtain ⟨m, hReads⟩ := ClassDescription.exists_reads hSpecs ha
    refine ⟨hReads.ofSignature?_signature, fun b hb => ?_⟩
    obtain ⟨m', hReads'⟩ := ClassDescription.exists_reads hSpecs hb
    exact hReads.signature_eq_iff hReads'
  · intro s hIdentity hSynthesized
    obtain ⟨p, r, c, definition, cls, hOrders, hLoad, hShows, hClasses, hDescribes, hClass⟩ :=
      exists_stored hSynthesized
    obtain ⟨specs, hPlan, hMethods⟩ := hDescribes.virtualMethods
    obtain ⟨declared, data, hData, hMembers, hSorts, -⟩ := hClass.members
    have hSpecs := ProxyClass.specs_of_plan hPlan
    have hDeclared : List.Forall₂ (fun entry spec => MethodEntry.Signed c d.name spec.1 entry)
        declared.virtualMethods specs.zipIdx :=
      (Pairing.comp hMethods hMembers.virtualMethods fun _ _ _ hMethod hStored =>
        hShows.signed_of_stored hOrders hIdentity hMethod.2 hStored).flip
    obtain ⟨order, hOrder, hPerm⟩ := List.perm_comp_forall₂ hSorts.virtualMethods.perm hDeclared
    have hOrderPerm : (order.map Prod.fst).Perm specs := by
      simpa using hPerm.map Prod.fst
    refine ⟨c, cls, data, specs, order.map Prod.fst, hLoad, hClasses, hData, hSpecs, hOrderPerm,
      List.forall₂_map_left_iff.mpr hOrder.flip, ?_⟩
    rw [(hOrderPerm.map _).nodup_iff]
    exact ClassDescription.nodup_signatures hSpecs
      (accepts_of_synthesize hSynthesized).distinctMethods

def named : HandlerBinding := new invocationHandler .name

theorem exists_synthesize_named : ∃ s, named.synthesize .ledger = .ok s := by
  have hSmall : ProxyClass.Small named .ledger := by decide +kernel
  exact (hSmall.accepts (by decide +kernel) (by decide)).exists_synthesize

theorem signatures_unambiguous_ledger : ∃ (s : Synthesized) (c : Container) (data : ClassData)
    (order : List MethodSpec), named.synthesize .ledger = .ok s ∧
      Container.load s.bytes = .ok c ∧
      (order.map MethodSpec.signature).Perm ["post(JLjava/lang/String;)D", "post(J)V",
        "audit([Ljava/lang/Object;)Z"] ∧
      List.Forall₂ (MethodEntry.Signed c "Lbank/Ledger;") order data.virtualMethods ∧
      (order.map MethodSpec.signature).Nodup ∧
      ∀ a ∈ order, MethodSpec.ofSignature? a.signature = some (a.name, a.proto) := by
  obtain ⟨s, hSynthesized⟩ := exists_synthesize_named
  obtain ⟨hTold, hClass⟩ := signatures_unambiguous named .ledger
  obtain ⟨c, cls, data, specs, order, hLoad, -, -, hSpecs, hPerm, hSigned, hNodup⟩ :=
    hClass s rfl hSynthesized
  have hDeclared : (ClassDescription.ledger.overridable.map MethodDescription.declared).map
      MethodSpec.signature =
        ["post(JLjava/lang/String;)D", "post(J)V", "audit([Ljava/lang/Object;)Z"] := by decide
  refine ⟨s, c, data, order, hSynthesized, hLoad, ?_, hSigned, hNodup, fun a ha => ?_⟩
  · rw [← hDeclared, ← ClassDescription.eq_declared_of_specs hSpecs]
    exact hPerm.map MethodSpec.signature
  · exact (hTold specs hSpecs a (hPerm.mem_iff.mp ha)).1

end HandlerBinding

end DexForge
