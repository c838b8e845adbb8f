import DexForge.Proofs.Machine.Basic

/-! # Running a delegating method

The body of a proxied method does what it is to do: each part of it is executed in turn, and the
arguments are packed by induction on the parameters.
-/
set_option autoImplicit false

namespace DexForge

def Request.referent {t : TableName} (r : Request t) : Referent t := Contents.referent r.contents

namespace Machine

open Delegation DexForge.Except

variable {Ω : Type} {s : State Ω}

def actions (code : List (Operation Request)) : List (Operation Referent) :=
  code.map (Operation.map Request.referent)

theorem actions_cons (op : Operation Request) (code : List (Operation Request)) :
    actions (op :: code) = op.map Request.referent :: actions code := rfl

theorem actions_append (code code' : List (Operation Request)) :
    actions (code ++ code') = actions code ++ actions code' := List.map_append

namespace State

theorem read_eq {reg : UInt16} {v : Value Ω} (h : s.registers reg.toNat = some v) :
    s.read reg = .ok v := by
  rw [read, h]

theorem mapM_read {regs : List UInt16} {args : List (Value Ω)}
    (h : List.Forall₂ (fun reg v => s.registers reg.toNat = some v) regs args) :
    regs.mapM s.read = .ok args :=
  mapM_eq_ok_iff.mpr (h.imp fun _ _ hReg => read_eq hReg)

theorem readWord_eq {reg : UInt8} {w : UInt32} (h : s.registers reg.toNat = some (.word w)) :
    s.readWord reg.toUInt16 = .ok w := by
  rw [readWord, UInt8.toNat_toUInt16, h]

theorem readRef_eq {reg : UInt8} {r : Ref Ω} (h : s.registers reg.toNat = some (.ref r)) :
    s.readRef reg.toUInt16 = .ok r := by
  rw [readRef, UInt8.toNat_toUInt16, h]

theorem readObject_eq {reg : UInt8} {o : Ω} (h : s.registers reg.toNat = some (.ref (.object o))) :
    s.readObject reg.toUInt16 = .ok o := by
  rw [readObject, UInt8.toNat_toUInt16, h]

theorem write_same (s : State Ω) (reg : Nat) (v : Value Ω) :
    (s.write reg v).registers reg = some v := Function.update_self ..

theorem write_of_ne {n reg : Nat} (h : n ≠ reg) (v : Value Ω) :
    (s.write reg v).registers n = s.registers n := Function.update_of_ne h ..

theorem put_eq {a i : Nat} {index : UInt32} {object : ArrayObject Ω}
    (hObject : s.arrays[a]? = some object) (hIndex : natural? index = some i)
    (hBound : i < object.elements.length) (r : Ref Ω) :
    s.put (.array a) index r = .ok
      { s with
        arrays := s.arrays.set a { object with elements := object.elements.set i r }
        pending := [] } := by
  simp only [put, hObject, hIndex, if_pos hBound]

end State

theorem natural?_ofNat {n : Nat} (h : n < 0x80000000) :
    natural? (Int32.ofNat n).toUInt32 = some n := by
  have hInt : (Int32.ofNat n).toInt = n := Int32.toInt_ofNat_of_lt h
  rw [natural?, Int32.toInt32_toUInt32, hInt]
  rfl

section Calls

theorem referent_boxing (p : Primitive) :
    (Request.method p.wrapper.text Primitive.boxer (boxProto p)).referent = boxing p := by
  cases p <;> rfl

theorem referent_unboxing (p : Primitive) :
    (Request.method p.wrapper.text p.unboxer (unboxProto p)).referent = unboxing p := by
  cases p <;> rfl

theorem boxed?_boxing (p : Primitive) : boxed? .static (boxing p) = some p := by
  cases p <;> rfl

theorem boxed?_of_ne {kind : InvokeKind} (h : kind ≠ .static) (method : MemberRef) :
    boxed? kind method = none := by
  rw [boxed?, if_neg h]

theorem unboxed?_unboxing (p : Primitive) : unboxed? .virtual (unboxing p) = some p := by
  cases p <;> rfl

theorem owner_boxing (p : Primitive) : (boxing p).owner = p.wrapper.text := by
  cases p <;> rfl

/-- The handler takes arguments and an accessor does not, so one is never taken for the other. -/
theorem unboxed?_invoke (binding : HandlerBinding) (owner : String) :
    unboxed? binding.invokeKind ⟨owner, binding.invokeName, binding.invokeProto.text⟩ = none := by
  have hTexts : ∀ type ∈ [TypeDescriptor.ofClass .reflectMethod, .ofPrimitive .int, .ofClass .string],
      ∀ p ∈ primitives, (unboxing p).descriptor ≠
        (ProtoDescriptor.mk .object [.object, type, .objectArray]).text := by decide
  have hType : binding.identity.type ∈
      [TypeDescriptor.ofClass .reflectMethod, .ofPrimitive .int, .ofClass .string] := by
    cases binding.identity <;> simp [MethodIdentity.type]
  rw [unboxed?]
  split
  · rw [List.find?_eq_none]
    intro p hp hSame
    exact hTexts _ hType p hp (congrArg MemberRef.descriptor (of_decide_eq_true hSame))
  · rfl

theorem boxed?_invoke (binding : HandlerBinding) (method : MemberRef) :
    boxed? binding.invokeKind method = none := by
  refine boxed?_of_ne ?_ method
  rw [HandlerBinding.invokeKind]
  split <;> decide

theorem words?_map_word (p : Primitive) (ws : Words p) :
    words? p (ws.val.map .word : List (Value Ω)) = some ws := by
  have hWords : (ws.val.map .word : List (Value Ω)).mapM Value.word? = some ws.val := by
    rw [Pairing.mapM_eq_some_iff, List.forall₂_map_left_iff, List.forall₂_same]
    exact fun _ _ => rfl
  rw [words?, hWords]
  exact dif_pos ws.property

theorem perform_box [DecidableEq Ω] (world : World Ω) {p : Primitive} {ws : Words p}
    {regs : List UInt16}
    (h : List.Forall₂ (fun reg v => s.registers reg.toNat = some v) regs (ws.val.map .word)) :
    world.perform s (.invoke .static (boxing p) regs) =
      .ok { s with pending := [.ref (.object (world.box p ws))] } := by
  rw [World.perform, State.mapM_read h, ok_bind]
  simp only [World.call, boxed?_boxing, words?_map_word]

end Calls

theorem perform_agetObject [DecidableEq Ω] (world : World Ω) {dst array index : UInt8} {o : Ω}
    {w : UInt32} {i : Nat} (hArray : s.registers array.toNat = some (.ref (.object o)))
    (hIndex : s.registers index.toNat = some (.word w)) (hi : natural? w = some i) :
    world.perform s (.agetObject dst array index) =
      match world.element o i with
      | some e => .ok (s.write dst.toNat (.ref (.object e)))
      | none => s.halt .threw := by
  rw [World.perform, State.readRef_eq hArray, ok_bind, State.readWord_eq hIndex, ok_bind, World.load,
    hi]
  cases hElement : world.element o i <;> simp [hElement, State.halt, pure, Except.pure]

theorem perform_newArray [DecidableEq Ω] (world : World Ω) {dst size : UInt8} {type : String}
    {w : UInt32} {n : Nat} (hSize : s.registers size.toNat = some (.word w))
    (hn : natural? w = some n) :
    world.perform s (.newArray dst size type) = .ok
      (State.write
        { s with arrays := s.arrays ++ [⟨type, List.replicate n (.object world.null)⟩] }
        dst.toNat (.ref (.array s.arrays.length))) := by
  rw [World.perform, State.readWord_eq hSize, ok_bind, hn]
  rfl

theorem performAll_cons [DecidableEq Ω] (world : World Ω) (s : State Ω) (op : Operation Referent)
    (ops : List (Operation Referent)) :
    world.performAll s (op :: ops) = (world.perform s op >>= fun s' => world.performAll s' ops) :=
  rfl

theorem performAll_const [DecidableEq Ω] (world : World Ω) (s : State Ω) (dst : UInt8)
    (value : Int32) (code : List (Operation Request)) :
    world.performAll s (actions (.const dst value :: code)) =
      world.performAll (s.write dst.toNat (.word value.toUInt32)) (actions code) := rfl

theorem performAll_append [DecidableEq Ω] (world : World Ω) (s : State Ω)
    (ops ops' : List (Operation Referent)) :
    world.performAll s (ops ++ ops') =
      (world.performAll s ops >>= fun s' => world.performAll s' ops') :=
  List.foldlM_append

def Holds (s : State Ω) (register : Nat) (values : List (Value Ω)) : Prop :=
  ∀ j v, values[j]? = some v → s.registers (register + j) = some v

theorem Argument.Suits.length_values {a : Argument Ω} {type : TypeDescriptor} (h : a.Suits type) :
    a.values.length = type.width ∧ 1 ≤ type.width := by
  cases a with
  | scalar p ws =>
    have hType : type.primitive? = some p := h
    rw [width_of_primitive hType, values, List.length_map, ws.property]
    exact ⟨rfl, by split <;> decide⟩
  | reference o =>
    have hReference : type.isReference = true := h
    rw [TypeDescriptor.isReference, Bool.and_eq_true, Bool.not_eq_true', Option.isNone_iff_eq_none]
      at hReference
    rw [width_of_reference hReference.1 hReference.2]
    exact ⟨rfl, Nat.le_refl 1⟩

theorem exists_low_high {p : Primitive} (h : p.isWide = true) (ws : Words p) :
    ∃ low high, ws.val = [low, high] :=
  List.length_eq_two.mp (ws.property.trans (if_pos h))

theorem exists_word {p : Primitive} (h : ¬p.isWide = true) (ws : Words p) :
    ∃ word, ws.val = [word] :=
  List.length_eq_one_iff.mp (ws.property.trans (if_neg h))

theorem Holds.words {register : Nat} {p : Primitive} {ws : Words p}
    (h : Holds s register (ws.val.map .word))
    (hBound : register + (if p.isWide then 2 else 1) ≤ 65536) :
    List.Forall₂ (fun (reg : UInt16) v => s.registers reg.toNat = some v)
      (if p.isWide then [UInt16.ofNat register, UInt16.ofNat register + 1]
        else [UInt16.ofNat register]) (ws.val.map .word) := by
  split at hBound
  · next hWide =>
    obtain ⟨low, high, hWords⟩ := exists_low_high hWide ws
    have hNext : (UInt16.ofNat register + 1).toNat = register + 1 := by
      have hAdd : UInt16.ofNat register + 1 = UInt16.ofNat (register + 1) :=
        (UInt16.ofNat_add register 1).symm
      rw [hAdd, toNat_register (by omega)]
    rw [hWords] at h ⊢
    rw [if_pos hWide]
    refine .cons ?_ (.cons ?_ .nil)
    · rw [toNat_register (by omega)]
      exact h 0 _ rfl
    · rw [hNext]
      exact h 1 _ rfl
  · next hNarrow =>
    obtain ⟨word, hWords⟩ := exists_word hNarrow ws
    rw [hWords] at h ⊢
    rw [if_neg hNarrow]
    refine .cons ?_ .nil
    rw [toNat_register (by omega)]
    exact h 0 _ rfl

structure Ready (s : State Ω) (proxy : Ω) (values : List (Value Ω)) : Prop where
  holdsProxy : s.registers 5 = some (.ref (.object proxy))
  holdsValues : Holds s 6 values

theorem Ready.write {proxy : Ω} {values : List (Value Ω)} (h : Ready s proxy values) {reg : Nat}
    (hReg : reg < 5) (v : Value Ω) : Ready (s.write reg v) proxy values where
  holdsProxy := by rw [State.write_of_ne (by omega), h.holdsProxy]
  holdsValues j w hw := by rw [State.write_of_ne (by omega), h.holdsValues j w hw]

/-- What the call of the handler needs, while its array of arguments is filled. -/
structure Loaded (s : State Ω) (handler : Ref Ω) (identity : Value Ω) (proxy : Ω)
    (values : List (Value Ω)) (elements : List (Ref Ω)) : Prop extends Ready s proxy values where
  holdsHandler : s.registers 0 = some (.ref handler)
  holdsIdentity : s.registers 1 = some identity
  holdsArray : s.registers 2 = some (.ref (.array 0))
  arrays : s.arrays = [⟨"[Ljava/lang/Object;", elements⟩]
  calls : s.calls = []
  stores : s.stores = []

namespace Loaded

variable {handler : Ref Ω} {identity : Value Ω} {proxy : Ω} {values : List (Value Ω)}
  {elements : List (Ref Ω)}

theorem write (h : Loaded s handler identity proxy values elements) {reg : Nat} (hLow : 2 < reg)
    (hHigh : reg < 5) (v : Value Ω) :
    Loaded (s.write reg v) handler identity proxy values elements where
  toReady := h.toReady.write hHigh v
  holdsHandler := by rw [State.write_of_ne (by omega), h.holdsHandler]
  holdsIdentity := by rw [State.write_of_ne (by omega), h.holdsIdentity]
  holdsArray := by rw [State.write_of_ne (by omega), h.holdsArray]
  arrays := h.arrays
  calls := h.calls
  stores := h.stores

theorem pending (h : Loaded s handler identity proxy values elements) (results : List (Value Ω)) :
    Loaded { s with pending := results } handler identity proxy values elements :=
  ⟨⟨h.holdsProxy, h.holdsValues⟩, h.holdsHandler, h.holdsIdentity, h.holdsArray, h.arrays, h.calls,
    h.stores⟩

variable [DecidableEq Ω] (world : World Ω)

theorem performAll_store (h : Loaded s handler identity proxy values elements) {position : Nat}
    (hPosition : position < elements.length) (hSmall : position < 0x80000000)
    (hIndex : s.registers 3 = some (.word (Int32.ofNat position).toUInt32)) (src : UInt8) {r : Ref Ω}
    (hSrc : s.registers src.toNat = some (.ref r)) :
    ∃ s', world.performAll s (actions [store src]) = .ok s' ∧
      Loaded s' handler identity proxy values (elements.set position r) := by
  have hObject : s.arrays[0]? = some ⟨"[Ljava/lang/Object;", elements⟩ := by rw [h.arrays]; rfl
  have hPerform : world.performAll s (actions [store src]) =
      s.put (.array 0) (Int32.ofNat position).toUInt32 r := by
    change (world.perform s (.aputObject src arrayRegister scratchRegister) >>= pure) = _
    rw [bind_pure, World.perform, State.readRef_eq (r := .array 0) h.holdsArray, ok_bind,
      State.readWord_eq hIndex, ok_bind, State.readRef_eq hSrc, ok_bind]
  rw [hPerform, State.put_eq hObject (natural?_ofNat hSmall) hPosition]
  refine ⟨_, rfl, ⟨h.holdsProxy, h.holdsValues⟩, h.holdsHandler, h.holdsIdentity, h.holdsArray, ?_,
    h.calls, h.stores⟩
  dsimp only
  rw [h.arrays]
  rfl

theorem performAll_packScalar (h : Loaded s handler identity proxy values elements) {position : Nat}
    (hPosition : position < elements.length) (hSmall : position < 0x80000000)
    (hIndex : s.registers 3 = some (.word (Int32.ofNat position).toUInt32)) {p : Primitive}
    {ws : Words p} {regs : List UInt16}
    (hRegs : List.Forall₂ (fun reg v => s.registers reg.toNat = some v) regs (ws.val.map .word)) :
    ∃ s', world.performAll s (actions
        [.invoke .static (.method p.wrapper.text Primitive.boxer (boxProto p)) regs,
         .moveResultObject boxedRegister, store boxedRegister]) = .ok s' ∧
      Loaded s' handler identity proxy values
        (elements.set position (.object (world.box p ws))) := by
  have hBoxed := (h.pending [.ref (.object (world.box p ws))]).write (by decide : 2 < 4) (by decide)
    (.ref (.object (world.box p ws)))
  obtain ⟨s', hStore, hLoaded⟩ := hBoxed.performAll_store world hPosition hSmall
    (by rw [State.write_of_ne (by decide)]; exact hIndex) boxedRegister (State.write_same _ 4 _)
  refine ⟨s', ?_, hLoaded⟩
  rw [← hStore, actions_cons, performAll_cons, Operation.map, referent_boxing,
    perform_box world hRegs, ok_bind]
  rfl

/-- A reference is stored, by way of another register when its own has a high number. -/
theorem performAll_packReference (h : Loaded s handler identity proxy values elements)
    {position : Nat} (hPosition : position < elements.length) (hSmall : position < 0x80000000)
    (hIndex : s.registers 3 = some (.word (Int32.ofNat position).toUInt32)) {reg : UInt16}
    {r : Ref Ω} (hReg : s.registers reg.toNat = some (.ref r)) :
    ∃ s', world.performAll s (actions
        (if reg < 256 then [store reg.toUInt8]
          else [.moveObject boxedRegister reg, store boxedRegister])) = .ok s' ∧
      Loaded s' handler identity proxy values (elements.set position r) := by
  split
  · next hLow =>
    refine h.performAll_store world hPosition hSmall hIndex _ ?_
    have hNat : reg.toUInt8.toNat = reg.toNat := by
      have hBound : reg.toNat < 256 := hLow
      rw [UInt16.toNat_toUInt8]
      exact Nat.mod_eq_of_lt hBound
    rw [hNat, hReg]
  · have hMoved := h.write (by decide : 2 < 4) (by decide) (.ref r)
    obtain ⟨s', hStore, hLoaded⟩ := hMoved.performAll_store world hPosition hSmall
      (by rw [State.write_of_ne (by decide)]; exact hIndex) boxedRegister (State.write_same _ 4 _)
    refine ⟨s', ?_, hLoaded⟩
    rw [← hStore]
    change ((do return s.write 4 (.ref (← s.readRef reg))) >>= fun s =>
      world.performAll s (actions [store boxedRegister])) = _
    rw [State.readRef, hReg]
    rfl

theorem performAll_packArgument (h : Loaded s handler identity proxy values elements)
    {position register : Nat} (hPosition : position < elements.length)
    (hSmall : position < 0x80000000) (hRegister : 6 ≤ register) {a : Argument Ω}
    {type : TypeDescriptor} (hSuits : a.Suits type) (hHolds : Holds s register a.values)
    (hBound : register + type.width ≤ 65536) :
    ∃ s', world.performAll s (actions (packArgument position (UInt16.ofNat register) type)) =
        .ok s' ∧
      Loaded s' handler identity proxy values (elements.set position (world.pack a)) := by
  -- the index goes into the scratch register, which no argument is in
  have hScratch := h.write (by decide : 2 < 3) (by decide) (.word (Int32.ofNat position).toUInt32)
  have hHolds' : Holds (s.write 3 (.word (Int32.ofNat position).toUInt32)) register a.values := by
    intro j v hv
    rw [State.write_of_ne (by omega), hHolds j v hv]
  have hIndex := s.write_same 3 (.word (Int32.ofNat position).toUInt32)
  rw [packArgument, performAll_const]
  cases a with
  | scalar p ws =>
    have hType : type.primitive? = some p := hSuits
    rw [width_of_primitive hType] at hBound
    rw [hType]
    exact hScratch.performAll_packScalar world hPosition hSmall hIndex (hHolds'.words hBound)
  | reference o =>
    have hReference : type.isReference = true := hSuits
    rw [TypeDescriptor.isReference, Bool.and_eq_true, Bool.not_eq_true', Option.isNone_iff_eq_none]
      at hReference
    obtain ⟨hVoid, hType⟩ := hReference
    rw [width_of_reference hVoid hType] at hBound
    rw [hType]
    refine hScratch.performAll_packReference world hPosition hSmall hIndex ?_
    rw [toNat_register (by omega)]
    exact hHolds' 0 _ rfl

/-- The parameters are packed one after the other: `packed` are those before, and `before` are the
values that they take. -/
theorem performAll_packFrom {args : List (Argument Ω)} {params : List TypeDescriptor}
    (hSuits : List.Forall₂ Argument.Suits args params) (packed : List (Ref Ω))
    (before : List (Value Ω))
    (h : Loaded s handler identity proxy values
      (packed ++ List.replicate params.length (.object world.null)))
    (hValues : values = before ++ args.flatMap Argument.values)
    (hBound : 6 + before.length + (params.map TypeDescriptor.width).sum ≤ 65536)
    (hPacked : packed.length ≤ before.length) :
    ∃ s', world.performAll s (actions (packFrom packed.length (6 + before.length) params)) =
        .ok s' ∧
      Loaded s' handler identity proxy values (packed ++ args.map world.pack) := by
  induction hSuits generalizing s packed before with
  | nil => exact ⟨s, rfl, h⟩
  | @cons a type args params hHead hTail ih =>
    obtain ⟨hLength, hWidth⟩ := hHead.length_values
    rw [List.map_cons, List.sum_cons] at hBound
    rw [List.flatMap_cons] at hValues
    have hHolds : Holds s (6 + before.length) a.values := by
      intro j v hv
      rw [Nat.add_assoc]
      refine h.holdsValues _ v ?_
      rw [hValues, List.getElem?_append_right (Nat.le_add_right _ _), Nat.add_sub_cancel_left,
        List.getElem?_append_left (List.getElem?_eq_some_iff.mp hv).1, hv]
    have hPosition : packed.length <
        (packed ++ List.replicate (type :: params).length (Ref.object world.null)).length := by simp
    obtain ⟨s₁, hFirst, hLoaded⟩ := h.performAll_packArgument world hPosition (by omega)
      (Nat.le_add_right 6 _) hHead hHolds (by omega)
    have hSet : (packed ++ List.replicate (type :: params).length (Ref.object world.null)).set
        packed.length (world.pack a) =
        (packed ++ [world.pack a]) ++ List.replicate params.length (Ref.object world.null) := by
      rw [List.set_append_right _ _ (Nat.le_refl _), Nat.sub_self, List.length_cons,
        List.replicate_succ, List.set_cons_zero, List.append_assoc]
      rfl
    have hValues' : values = (before ++ a.values) ++ args.flatMap Argument.values := by
      rw [hValues, List.append_assoc]
    rw [hSet] at hLoaded
    obtain ⟨s₂, hRest, hLoaded'⟩ := ih _ _ hLoaded hValues'
      (by rw [List.length_append, hLength]; omega)
      (by rw [List.length_append, List.length_append, hLength, List.length_singleton]; omega)
    refine ⟨s₂, ?_, ?_⟩
    · rw [List.length_append, List.length_append, List.length_singleton, hLength, ← Nat.add_assoc]
        at hRest
      rw [packFrom, actions_append, performAll_append, hFirst, ok_bind, hRest]
    · rwa [List.append_assoc] at hLoaded'

end Loaded

structure Opened (s : State Ω) (handler : Ref Ω) (proxy : Ω) (values : List (Value Ω)) : Prop extends
    Ready s proxy values where
  holdsHandler : s.registers 0 = some (.ref handler)
  arrays : s.arrays = []
  calls : s.calls = []
  stores : s.stores = []

theorem ready_entry (width : Nat) (proxy : Ω) (args : List (Argument Ω)) :
    Ready (State.entry (6 + width) (1 + width) proxy args) proxy
      (args.flatMap Argument.values) where
  holdsProxy := by
    have hBase : 6 + width - (1 + width) = 5 := by omega
    simp only [State.entry, hBase]
    rfl
  holdsValues j v hv := by
    have hBase : 6 + width - (1 + width) = 5 := by omega
    have hPlace : 6 + j - 5 = j + 1 := by omega
    simp only [State.entry, hBase, hPlace]
    rw [if_neg (by omega), List.getElem?_cons_succ, hv]

namespace Opened

variable [DecidableEq Ω] (world : World Ω) {handler : Ref Ω} {proxy : Ω} {values : List (Value Ω)}

omit [DecidableEq Ω] in
theorem write (h : Opened s handler proxy values) {reg : Nat} (hLow : 0 < reg) (hHigh : reg < 5)
    (v : Value Ω) : Opened (s.write reg v) handler proxy values where
  toReady := h.toReady.write hHigh v
  holdsHandler := by rw [State.write_of_ne (by omega), h.holdsHandler]
  arrays := h.arrays
  calls := h.calls
  stores := h.stores

/-- The identity is loaded, unless the array of methods has no element for it. -/
theorem performAll_loadIdentity (h : Opened s handler proxy values) (ctx : Context)
    (spec : MethodSpec) {ordinal : Nat} (hOrdinal : ordinal < 0x80000000) :
    match world.identity ctx.binding ctx.owner spec ordinal with
    | none => world.performAll s (actions (loadIdentity ctx spec ordinal)) = .error ⟨[], [], .threw⟩
    | some identity => ∃ s', world.performAll s (actions (loadIdentity ctx spec ordinal)) = .ok s' ∧
        Opened s' handler proxy values ∧ s'.registers 1 = some identity := by
  rw [World.identity, loadIdentity]
  cases ctx.binding.identity with
  | index => exact ⟨_, rfl, h.write (by decide : 0 < 1) (by decide) _, State.write_same ..⟩
  | name => exact ⟨_, rfl, h.write (by decide : 0 < 1) (by decide) _, State.write_same ..⟩
  | methodArray field =>
    have hText : MethodIdentity.arrayType.text = "[Ljava/lang/reflect/Method;" := rfl
    have hField : (ctx.methodArrayField field).referent =
        ⟨ctx.owner, field, "[Ljava/lang/reflect/Method;"⟩ :=
      congrArg (MemberRef.mk ctx.owner field) hText
    dsimp only
    generalize hStatic : world.static ⟨ctx.owner, field, "[Ljava/lang/reflect/Method;"⟩ = methods
    have hIndex := (h.write (by decide : 0 < 1) (by decide) (.ref (.object methods))).write
      (by decide : 0 < 3) (by decide) (.word (Int32.ofNat ordinal).toUInt32)
    have hLoad : world.perform s (.sgetObject identityRegister
        (ctx.methodArrayField field).referent) = .ok (s.write 1 (.ref (.object methods))) := by
      rw [hField, ← hStatic]
      rfl
    rw [actions_cons, performAll_cons, Operation.map, hLoad, ok_bind, performAll_const, actions_cons,
      performAll_cons, Operation.map, perform_agetObject world (o := methods) ?_
        (State.write_same _ 3 _) (natural?_ofNat hOrdinal)]
    · cases world.element methods ordinal with
      | none =>
        change Except.error (Halt.mk s.calls s.stores .threw) = _
        rw [h.calls, h.stores]
      | some o => exact ⟨_, rfl, hIndex.write (by decide : 0 < 1) (by decide) _, State.write_same ..⟩
    · rw [State.write_of_ne (by decide)]
      exact State.write_same ..

omit [DecidableEq Ω] in
theorem loaded (h : Opened s handler proxy values) {identity : Value Ω}
    (hIdentity : s.registers 1 = some identity) (elements : List (Ref Ω)) :
    Loaded (State.write { s with arrays := s.arrays ++ [⟨"[Ljava/lang/Object;", elements⟩] } 2
      (.ref (.array s.arrays.length))) handler identity proxy values elements where
  toReady := by
    have hReady : Ready { s with arrays := s.arrays ++ [⟨"[Ljava/lang/Object;", elements⟩] } proxy
        values := ⟨h.holdsProxy, h.holdsValues⟩
    exact hReady.write (by decide) _
  holdsHandler := (State.write_of_ne (by decide) _).trans h.holdsHandler
  holdsIdentity := (State.write_of_ne (by decide) _).trans hIdentity
  holdsArray := by
    rw [h.arrays]
    exact State.write_same ..
  arrays := by
    simp only [State.write, h.arrays]
    rfl
  calls := h.calls
  stores := h.stores

theorem performAll_newArguments (h : Opened s handler proxy values) {identity : Value Ω}
    (hIdentity : s.registers 1 = some identity) {count : Nat} (hCount : count < 0x80000000) :
    ∃ s', world.performAll s (actions (newArguments count)) = .ok s' ∧
      Loaded s' handler identity proxy values (List.replicate count (.object world.null)) := by
  have hType : (Request.type TypeDescriptor.objectArray.text).referent = "[Ljava/lang/Object;" := rfl
  have hSize := h.write (by decide : 0 < 3) (by decide) (.word (Int32.ofNat count).toUInt32)
  have hIdentity' : (s.write 3 (.word (Int32.ofNat count).toUInt32)).registers 1 = some identity :=
    (State.write_of_ne (by decide) _).trans hIdentity
  rw [newArguments, performAll_const, actions_cons, performAll_cons, Operation.map,
    perform_newArray world (State.write_same _ 3 _) (natural?_ofNat hCount), ok_bind, hType]
  exact ⟨_, rfl, hSize.loaded hIdentity' _⟩

end Opened

variable [DecidableEq Ω] (world : World Ω)

theorem perform_callHandler (binding : HandlerBinding) (owner : String) {identity : Value Ω}
    {proxy : Ω} {values : List (Value Ω)} {args : List (Argument Ω)}
    (h : Loaded s (.object (world.field proxy ⟨owner, binding.field, binding.handler⟩)) identity proxy
      values (args.map world.pack)) :
    world.perform s ((callHandler binding).map Request.referent) = .ok
      { s with
        calls := [world.handlerCall binding owner identity proxy args]
        pending := [.ref (world.answer (world.handlerCall binding owner identity proxy args))] } := by
  have hRead : [resultRegister.toUInt16, selfRegister.toUInt16, identityRegister.toUInt16,
      arrayRegister.toUInt16].mapM s.read =
      .ok (world.handlerCall binding owner identity proxy args).args :=
    State.mapM_read (.cons h.holdsHandler (.cons h.holdsProxy (.cons h.holdsIdentity
      (.cons h.holdsArray .nil))))
  have hCall : ⟨binding.invokeKind, ⟨binding.handler, binding.invokeName, binding.invokeProto.text⟩,
      (world.handlerCall binding owner identity proxy args).args, s.arrays⟩ =
      world.handlerCall binding owner identity proxy args := by
    rw [h.arrays]
    rfl
  have hMethod : (Request.method binding.handler binding.invokeName binding.invokeProto).referent =
      ⟨binding.handler, binding.invokeName, binding.invokeProto.text⟩ := rfl
  rw [callHandler, Operation.map, World.perform, hRead, ok_bind, hMethod]
  simp only [World.call, boxed?_invoke, unboxed?_invoke, hCall, h.calls, List.nil_append]

theorem perform_checkCast (reg : UInt8) {r : Ref Ω} (h : s.registers reg.toNat = some (.ref r))
    (type : String) : world.perform s (.checkCast reg type) =
      if world.isInstance r type then .ok s.next else s.halt .threw := by
  rw [World.perform, State.readRef_eq h, ok_bind]

theorem perform_unbox {p : Primitive} (reg : UInt8) {r : Ref Ω}
    (h : s.registers reg.toNat = some (.ref r)) :
    world.perform s (.invoke .virtual (unboxing p) [reg.toUInt16]) =
      match world.unbox p r with
      | some ws => .ok { s with pending := ws.val.map .word }
      | none => s.halt .threw := by
  have hRead : [reg.toUInt16].mapM s.read = .ok [.ref r] :=
    State.mapM_read (.cons (by rw [UInt8.toNat_toUInt16, h]) .nil)
  have hBoxed : boxed? .virtual (unboxing p) = none := boxed?_of_ne InvokeKind.noConfusion _
  rw [World.perform, hRead, ok_bind]
  cases hUnbox : world.unbox p r <;> simp only [World.call, hBoxed, unboxed?_unboxing, hUnbox]

theorem performAll_returnScalar {p : Primitive} {ws : Words p} (h : s.pending = ws.val.map .word) :
    world.performAll s (actions
      (if p.isWide then [.moveResultWide resultRegister, .returnWide resultRegister]
        else [.moveResult resultRegister, .returnValue resultRegister])) =
      .error ⟨s.calls, s.stores, .returned (ws.val.map .word)⟩ := by
  split
  · next hWide =>
    obtain ⟨low, high, hWords⟩ := exists_low_high hWide ws
    rw [hWords] at h ⊢
    rw [actions_cons, performAll_cons, Operation.map, World.perform, h]
    rfl
  · next hNarrow =>
    obtain ⟨word, hWords⟩ := exists_word hNarrow ws
    rw [hWords] at h ⊢
    rw [actions_cons, performAll_cons, Operation.map, World.perform, h]
    rfl

theorem performAll_giveBack (type : TypeDescriptor) {answer : Ref Ω}
    (h : s.pending = [.ref answer]) :
    world.performAll s (actions (giveBack type)) =
      .error ⟨s.calls, s.stores, world.convert type answer⟩ := by
  rw [giveBack, World.convert]
  split
  · rfl
  · have hMove : ∀ code, world.performAll s (actions (.moveResultObject resultRegister :: code)) =
        world.performAll (s.write 0 (.ref answer)) (actions code) := by
      intro code
      rw [actions_cons, performAll_cons, Operation.map, World.perform, h]
      rfl
    have hCast := perform_checkCast world resultRegister (s.write_same 0 (.ref answer))
    rw [hMove]
    cases type.primitive? with
    | none =>
      dsimp only
      rw [actions_cons, performAll_cons, Operation.map, hCast]
      have hText : (Request.type type.text).referent = type.text := rfl
      rw [hText]
      split <;> rfl
    | some p =>
      dsimp only
      rw [List.cons_append, actions_cons, performAll_cons, Operation.map, hCast]
      have hText : (Request.type p.wrapper.text).referent = (boxing p).owner := (owner_boxing p).symm
      rw [hText]
      have hHeld : (s.write 0 (.ref answer)).next.registers resultRegister.toNat =
          some (.ref answer) := s.write_same 0 (.ref answer)
      split
      · rw [ok_bind, List.cons_append, List.nil_append, actions_cons, performAll_cons, Operation.map,
          referent_unboxing, perform_unbox world resultRegister hHeld]
        cases world.unbox p answer with
        | none => rfl
        | some ws => exact performAll_returnScalar world rfl
      · rfl

omit [DecidableEq Ω] in
theorem length_le_sum_width {args : List (Argument Ω)} {params : List TypeDescriptor}
    (h : List.Forall₂ Argument.Suits args params) :
    params.length ≤ (params.map TypeDescriptor.width).sum := by
  induction h with
  | nil => exact Nat.le_refl 0
  | cons hHead _ ih =>
    have hWidth := hHead.length_values.2
    rw [List.length_cons, List.map_cons, List.sum_cons]
    omega

theorem referent_handlerField {ctx : Context} {handler : ClassName}
    (h : ctx.binding.handlerClass = .ok handler) :
    (ctx.handlerField handler).referent = ⟨ctx.owner, ctx.binding.field, ctx.binding.handler⟩ := by
  rw [← HandlerBinding.text_of_handlerClass h]
  rfl

theorem exists_opened_entry (width : Nat) (proxy : Ω) (args : List (Argument Ω))
    (field : MemberRef) : ∃ s',
      world.perform (State.entry (6 + width) (1 + width) proxy args)
        (.igetObject resultRegister selfRegister field) = .ok s' ∧
      Opened s' (.object (world.field proxy field)) proxy (args.flatMap Argument.values) := by
  have hReady := ready_entry width proxy args
  have hProxy : (State.entry (6 + width) (1 + width) proxy args).registers selfRegister.toNat =
      some (.ref (.object proxy)) := hReady.holdsProxy
  refine ⟨(State.entry (6 + width) (1 + width) proxy args).write 0
    (.ref (.object (world.field proxy field))), ?_, hReady.write (by decide) _,
    State.write_same .., rfl, rfl, rfl⟩
  rw [World.perform, State.readObject_eq hProxy]
  rfl

/-- The body of a proxied method delegates, whatever the arguments. -/
theorem performAll_body {ctx : Context} {spec : MethodSpec} {ordinal : Nat} {handler : ClassName}
    {body : MethodBody Request} (h : Bodied ctx spec ordinal handler body) (proxy : Ω)
    {args : List (Argument Ω)} (hArgs : List.Forall₂ Argument.Suits args spec.params) :
    world.performAll (State.entry body.registers.toNat body.ins.toNat proxy args)
      (actions body.code) =
      .error (world.delegate ctx.binding ctx.owner spec ordinal proxy args) := by
  have hBound : 6 + (spec.params.map TypeDescriptor.width).sum < 65536 :=
    h.registers_lt
  have hCount : spec.params.length < 0x80000000 := by
    have hLength := length_le_sum_width hArgs
    omega
  obtain ⟨s₁, hOpen, hOpened⟩ := exists_opened_entry world spec.proto.paramWidth proxy args
    ⟨ctx.owner, ctx.binding.field, ctx.binding.handler⟩
  have hIdentity := hOpened.performAll_loadIdentity world ctx spec h.ordinal_lt
  rw [h.toNat_registers, h.toNat_ins, h.eq]
  dsimp only
  rw [packArguments_eq, List.cons_append, List.cons_append, List.cons_append, actions_cons,
    performAll_cons, Operation.map, referent_handlerField h.handlerClass, hOpen, ok_bind,
    List.append_assoc, List.append_assoc, actions_append, performAll_append, World.delegate]
  split
  · next hNone =>
    rw [hNone] at hIdentity
    rw [hIdentity, error_bind]
  · next identity hSome =>
    rw [hSome] at hIdentity
    obtain ⟨s₂, hLoad, hOpened₂, hHeld⟩ := hIdentity
    obtain ⟨s₃, hNew, hLoaded⟩ := hOpened₂.performAll_newArguments world hHeld hCount
    obtain ⟨s₄, hPack, hPacked⟩ := Loaded.performAll_packFrom world hArgs [] [] hLoaded rfl
      (Nat.le_of_lt hBound) (Nat.le_refl 0)
    rw [hLoad, ok_bind, actions_append, performAll_append, hNew, ok_bind, actions_append,
      performAll_append]
    have hPack' : world.performAll s₃ (actions (packFrom 0 6 spec.params)) = .ok s₄ := hPack
    rw [hPack', ok_bind, actions_cons, performAll_cons,
      perform_callHandler world ctx.binding ctx.owner hPacked, ok_bind,
      performAll_giveBack world _ rfl]
    dsimp only
    rw [hPacked.stores]

/-- The outside answers a direct call, which neither boxes nor unboxes. -/
theorem perform_invokeDirect (method : MemberRef) {regs : List UInt16} {args : List (Value Ω)}
    (h : List.Forall₂ (fun reg v => s.registers reg.toNat = some v) regs args) :
    world.perform s (.invoke .direct method regs) = .ok
      { s with
        calls := s.calls ++ [⟨.direct, method, args, s.arrays⟩]
        pending := [.ref (world.answer ⟨.direct, method, args, s.arrays⟩)] } := by
  have hBoxed : boxed? .direct method = none := boxed?_of_ne InvokeKind.noConfusion _
  have hUnboxed : unboxed? .direct method = none := if_neg InvokeKind.noConfusion
  rw [World.perform, State.mapM_read h, ok_bind]
  simp only [World.call, hBoxed, hUnboxed]

theorem perform_iputObject {src object : UInt8} {r : Ref Ω} {o : Ω}
    (hObject : s.registers object.toNat = some (.ref (.object o)))
    (hSrc : s.registers src.toNat = some (.ref r)) (field : MemberRef) :
    world.perform s (.iputObject src object field) =
      .ok { s.next with stores := ((o, field), r) :: s.stores } := by
  rw [World.perform, State.readObject_eq hObject, ok_bind, State.readRef_eq hSrc, ok_bind]
  rfl

/-- The constructor keeps the handler it is given, whatever the superclass does. -/
theorem performAll_constructorBody {ctx : Context} {superclass : String} {body : MethodBody Request}
    (h : constructorBody ctx superclass = .ok body) (proxy handler : Ω) :
    world.performAll (State.entry body.registers.toNat body.ins.toNat proxy [.reference handler])
      (actions body.code) =
      .error (construct ctx.binding ctx.owner superclass proxy handler) := by
  obtain ⟨name, hName, rfl⟩ := constructorBody_eq_ok h
  have hMethod : (Request.method superclass Name.constructor ⟨.void, []⟩).referent =
      ⟨superclass, "<init>", "()V"⟩ := rfl
  have hEntry : List.Forall₂ (fun (reg : UInt16) v =>
      (State.entry 2 2 proxy [.reference handler]).registers reg.toNat = some v)
      [0] [.ref (.object proxy)] := .cons rfl .nil
  have hCall := perform_invokeDirect world ⟨superclass, "<init>", "()V"⟩ hEntry
  have hTwo : (2 : UInt16).toNat = 2 := rfl
  rw [hTwo, actions_cons, performAll_cons, Operation.map, hMethod, hCall, ok_bind, actions_cons,
    performAll_cons, Operation.map, referent_handlerField hName, perform_iputObject world rfl rfl,
    ok_bind]
  rfl

/-- A method of a constructed object calls the handler that the constructor was given. -/
theorem head?_args_of_delegate (binding : HandlerBinding) (owner superclass : String)
    (spec : MethodSpec) (ordinal : Nat) (proxy handler : Ω) (args : List (Argument Ω)) :
    let world' := world.after (construct binding owner superclass proxy handler).stores
    ∀ call ∈ (world'.delegate binding owner spec ordinal proxy args).calls,
      call.args.head? = some (.ref (.object handler)) := by
  intro world' call hCall
  have hField : world'.field proxy ⟨owner, binding.field, binding.handler⟩ = handler := by
    simp only [world', World.after, construct, List.lookup_cons_self]
  rw [World.delegate] at hCall
  split at hCall
  · cases hCall
  · obtain rfl := List.mem_singleton.mp hCall
    rw [World.handlerCall, List.head?_cons, hField]

end Machine

end DexForge
