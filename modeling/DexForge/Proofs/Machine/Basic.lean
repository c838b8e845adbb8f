import DexForge.Proofs.Container.Verification
import DexForge.Proofs.Proxy.Resolution
import Mathlib.Logic.Function.Basic

/-! # An abstract machine

Executes the instructions of a container on registers of 32 bits, as far as delegating methods need
them. The outside is a parameter: it tells what fields and arrays hold, boxes and unboxes values, and
answers all other calls. A run is stuck when it reads a register that holds nothing, or something of
another kind than is wanted.
-/
set_option autoImplicit false

namespace DexForge.Machine

open DexForge.Except

/-- An object of the outside, or an array that the method itself has made. -/
inductive Ref (Ω : Type) where
  | object (o : Ω)
  | array (i : Nat)
deriving DecidableEq

inductive Value (Ω : Type) where
  | word (w : UInt32)
  | ref (r : Ref Ω)

def Value.word? {Ω : Type} : Value Ω → Option UInt32
  | word w => some w
  | ref _ => none

abbrev Words (p : Primitive) : Type :=
  { ws : List UInt32 // ws.length = if p.isWide then 2 else 1 }

structure ArrayObject (Ω : Type) where
  type : String
  elements : List (Ref Ω)

/-- A call with its arguments, and the arrays as they were when it was made. -/
structure Call (Ω : Type) where
  kind : InvokeKind
  method : MemberRef
  args : List (Value Ω)
  arrays : List (ArrayObject Ω)

def boxing : Primitive → MemberRef
  | .boolean => ⟨"Ljava/lang/Boolean;", "valueOf", "(Z)Ljava/lang/Boolean;"⟩
  | .byte => ⟨"Ljava/lang/Byte;", "valueOf", "(B)Ljava/lang/Byte;"⟩
  | .short => ⟨"Ljava/lang/Short;", "valueOf", "(S)Ljava/lang/Short;"⟩
  | .char => ⟨"Ljava/lang/Character;", "valueOf", "(C)Ljava/lang/Character;"⟩
  | .int => ⟨"Ljava/lang/Integer;", "valueOf", "(I)Ljava/lang/Integer;"⟩
  | .long => ⟨"Ljava/lang/Long;", "valueOf", "(J)Ljava/lang/Long;"⟩
  | .float => ⟨"Ljava/lang/Float;", "valueOf", "(F)Ljava/lang/Float;"⟩
  | .double => ⟨"Ljava/lang/Double;", "valueOf", "(D)Ljava/lang/Double;"⟩

def unboxing : Primitive → MemberRef
  | .boolean => ⟨"Ljava/lang/Boolean;", "booleanValue", "()Z"⟩
  | .byte => ⟨"Ljava/lang/Byte;", "byteValue", "()B"⟩
  | .short => ⟨"Ljava/lang/Short;", "shortValue", "()S"⟩
  | .char => ⟨"Ljava/lang/Character;", "charValue", "()C"⟩
  | .int => ⟨"Ljava/lang/Integer;", "intValue", "()I"⟩
  | .long => ⟨"Ljava/lang/Long;", "longValue", "()J"⟩
  | .float => ⟨"Ljava/lang/Float;", "floatValue", "()F"⟩
  | .double => ⟨"Ljava/lang/Double;", "doubleValue", "()D"⟩

/-- The outside of a method. Unboxing undoes boxing, and a box passes a cast to its class. -/
structure World (Ω : Type) where
  null : Ω
  text : String → Ω
  field : Ω → MemberRef → Ω
  static : MemberRef → Ω
  element : Ω → Nat → Option Ω
  isInstance : Ref Ω → String → Bool
  box : (p : Primitive) → Words p → Ω
  unbox : (p : Primitive) → Ref Ω → Option (Words p)
  answer : Call Ω → Ref Ω
  unbox_box : ∀ p ws, unbox p (.object (box p ws)) = some ws
  isInstance_box : ∀ p ws, isInstance (.object (box p ws)) (boxing p).owner = true

/-- What a world has to tell apart at least. -/
inductive Thing where
  | null
  | text (text : String)
  | box (p : Primitive) (ws : Words p)
deriving DecidableEq

instance : Inhabited (World Thing) where
  default :=
    { null := .null
      text := .text
      field _ _ := .null
      static _ := .null
      element _ _ := some .null
      isInstance
        | .object (.box p _), type => type == (boxing p).owner
        | _, _ => true
      box := .box
      unbox
        | p, .object (.box q ws) => if h : q = p then some (h ▸ ws) else none
        | _, _ => none
      answer _ := .object .null
      unbox_box _ _ := dif_pos rfl
      isInstance_box _ _ := beq_self_eq_true _ }

/-- `pending` is the result of the call just made; `stores` are the fields that were written, the
last one first. -/
structure State (Ω : Type) where
  registers : Nat → Option (Value Ω)
  arrays : List (ArrayObject Ω)
  stores : List ((Ω × MemberRef) × Ref Ω)
  pending : List (Value Ω)
  calls : List (Call Ω)

inductive Ending (Ω : Type) where
  | returned (values : List (Value Ω))
  | threw
  | stuck

/-- What a run did to the outside, and how it ended. -/
structure Halt (Ω : Type) where
  calls : List (Call Ω)
  stores : List ((Ω × MemberRef) × Ref Ω)
  ending : Ending Ω

namespace State

variable {Ω : Type}

def halt {α : Type} (s : State Ω) (e : Ending Ω) : Except (Halt Ω) α := .error ⟨s.calls, s.stores, e⟩

def read (s : State Ω) (reg : UInt16) : Except (Halt Ω) (Value Ω) :=
  match s.registers reg.toNat with
  | some v => .ok v
  | none => s.halt .stuck

def readWord (s : State Ω) (reg : UInt16) : Except (Halt Ω) UInt32 :=
  match s.registers reg.toNat with
  | some (.word w) => .ok w
  | _ => s.halt .stuck

def readRef (s : State Ω) (reg : UInt16) : Except (Halt Ω) (Ref Ω) :=
  match s.registers reg.toNat with
  | some (.ref r) => .ok r
  | _ => s.halt .stuck

def readObject (s : State Ω) (reg : UInt16) : Except (Halt Ω) Ω :=
  match s.registers reg.toNat with
  | some (.ref (.object o)) => .ok o
  | _ => s.halt .stuck

/-- The result of a call is lost when it is not taken at once. -/
def next (s : State Ω) : State Ω := { s with pending := [] }

def write (s : State Ω) (reg : Nat) (v : Value Ω) : State Ω :=
  { s with registers := Function.update s.registers reg (some v), pending := [] }

end State

/-- An index or a size, which is signed and must not be below zero. -/
def natural? (w : UInt32) : Option Nat := w.toInt32.toInt.toNat?

def words? {Ω : Type} (p : Primitive) (values : List (Value Ω)) : Option (Words p) := do
  let ws ← values.mapM Value.word?
  if h : ws.length = if p.isWide then 2 else 1 then some ⟨ws, h⟩ else none

def State.put {Ω : Type} (s : State Ω) (array : Ref Ω) (index : UInt32) (r : Ref Ω) :
    Except (Halt Ω) (State Ω) :=
  match array with
  | .object _ => s.halt .stuck
  | .array a =>
    match s.arrays[a]?, natural? index with
    | none, _ => s.halt .stuck
    | some _, none => s.halt .threw
    | some object, some i =>
      if i < object.elements.length then
        .ok { s with
          arrays := s.arrays.set a { object with elements := object.elements.set i r }
          pending := [] }
      else s.halt .threw

def primitives : List Primitive := [.boolean, .byte, .short, .char, .int, .long, .float, .double]

def boxed? (kind : InvokeKind) (method : MemberRef) : Option Primitive :=
  if kind = .static then primitives.find? fun p => boxing p = method else none

def unboxed? (kind : InvokeKind) (method : MemberRef) : Option Primitive :=
  if kind = .virtual then primitives.find? fun p => unboxing p = method else none

namespace World

variable {Ω : Type} (world : World Ω)

def load (s : State Ω) (array : Ref Ω) (index : UInt32) : Except (Halt Ω) (Ref Ω) :=
  let found? : Option (Ref Ω) := do
    let i ← natural? index
    match array with
    | .object o => (world.element o i).map .object
    | .array a => (← s.arrays[a]?).elements[i]?
  match found? with
  | some r => .ok r
  | none => s.halt .threw

/-- Boxes, unboxes or asks the outside. -/
def call (s : State Ω) (kind : InvokeKind) (method : MemberRef) (args : List (Value Ω)) :
    Except (Halt Ω) (State Ω) :=
  match boxed? kind method, unboxed? kind method with
  | some p, _ =>
    match words? p args with
    | some ws => .ok { s with pending := [.ref (.object (world.box p ws))] }
    | none => s.halt .stuck
  | none, some p =>
    match args with
    | [.ref r] =>
      match world.unbox p r with
      | some ws => .ok { s with pending := ws.val.map .word }
      | none => s.halt .threw
    | _ => s.halt .stuck
  | none, none =>
    let call : Call Ω := ⟨kind, method, args, s.arrays⟩
    .ok { s with calls := s.calls ++ [call], pending := [.ref (world.answer call)] }

variable [DecidableEq Ω]

def perform (s : State Ω) : Operation Referent → Except (Halt Ω) (State Ω)
  | .returnVoid => s.halt (.returned [])
  | .returnValue reg => do s.halt (.returned [.word (← s.readWord reg.toUInt16)])
  | .returnWide reg => do
    s.halt (.returned
      [.word (← s.readWord reg.toUInt16), .word (← s.readWord (reg.toUInt16 + 1))])
  | .returnObject reg => do s.halt (.returned [.ref (← s.readRef reg.toUInt16)])
  | .moveResult dst =>
    match s.pending with
    | [.word w] => .ok (s.write dst.toNat (.word w))
    | _ => s.halt .stuck
  | .moveResultWide dst =>
    match s.pending with
    | [.word low, .word high] =>
      .ok ((s.write dst.toNat (.word low)).write (dst.toNat + 1) (.word high))
    | _ => s.halt .stuck
  | .moveResultObject dst =>
    match s.pending with
    | [.ref r] => .ok (s.write dst.toNat (.ref r))
    | _ => s.halt .stuck
  | .moveObject dst src => do return s.write dst.toNat (.ref (← s.readRef src))
  | .const dst value => .ok (s.write dst.toNat (.word value.toUInt32))
  | .constString dst text => .ok (s.write dst.toNat (.ref (.object (world.text text))))
  | .checkCast reg type => do
    if world.isInstance (← s.readRef reg.toUInt16) type then .ok s.next else s.halt .threw
  | .newArray dst size type => do
    match natural? (← s.readWord size.toUInt16) with
    | some n =>
      let made : ArrayObject Ω := ⟨type, List.replicate n (.object world.null)⟩
      return { s with arrays := s.arrays ++ [made] }.write dst.toNat (.ref (.array s.arrays.length))
    | none => s.halt .threw
  | .agetObject dst array index => do
    let r ← world.load s (← s.readRef array.toUInt16) (← s.readWord index.toUInt16)
    return s.write dst.toNat (.ref r)
  | .aputObject src array index => do
    s.put (← s.readRef array.toUInt16) (← s.readWord index.toUInt16) (← s.readRef src.toUInt16)
  | .igetObject dst object field => do
    let o ← s.readObject object.toUInt16
    let held := (s.stores.lookup (o, field)).getD (.object (world.field o field))
    return s.write dst.toNat (.ref held)
  | .iputObject src object field => do
    let entry := ((← s.readObject object.toUInt16, field), ← s.readRef src.toUInt16)
    return { s.next with stores := entry :: s.stores }
  | .sgetObject dst field => .ok (s.write dst.toNat (.ref (.object (world.static field))))
  | .invoke kind method args => do world.call s kind method (← args.mapM s.read)

def performAll (s : State Ω) (ops : List (Operation Referent)) : Except (Halt Ω) (State Ω) :=
  ops.foldlM world.perform s

def execute (c : Container) (s : State Ω) (i : Instruction) : Except (Halt Ω) (State Ω) :=
  match i.resolve? c.lookup? with
  | some op => world.perform s op
  | none => s.halt .stuck

/-- Executes instructions until one of them ends the run; the end of the code is no way to end. -/
def run (c : Container) (is : List Instruction) (s : State Ω) : Halt Ω :=
  match is.foldlM (world.execute c) s with
  | .ok s => ⟨s.calls, s.stores, .stuck⟩
  | .error h => h

end World

inductive Argument (Ω : Type) where
  | reference (o : Ω)
  | scalar (p : Primitive) (ws : Words p)

namespace Argument

variable {Ω : Type}

def values : Argument Ω → List (Value Ω)
  | reference o => [.ref (.object o)]
  | scalar _ ws => ws.val.map .word

def Suits : Argument Ω → TypeDescriptor → Prop
  | reference _, type => type.isReference = true
  | scalar p _, type => type.primitive? = some p

end Argument

/-- How a method is entered: the last registers of its frame hold the object and the arguments. -/
def State.entry {Ω : Type} (registers ins : Nat) (proxy : Ω) (args : List (Argument Ω)) :
    State Ω where
  registers n :=
    if n < registers - ins then none
    else (.ref (.object proxy) :: args.flatMap Argument.values)[n - (registers - ins)]?
  arrays := []
  stores := []
  pending := []
  calls := []

namespace World

variable {Ω : Type} (world : World Ω)

def pack : Argument Ω → Ref Ω
  | .reference o => .object o
  | .scalar p ws => .object (world.box p ws)

/-- What tells the handler which method was called; `none` when the array of methods has no such
element. -/
def identity (binding : HandlerBinding) (owner : String) (spec : MethodSpec) (ordinal : Nat) :
    Option (Value Ω) :=
  match binding.identity with
  | .methodArray field =>
    (world.element (world.static ⟨owner, field, "[Ljava/lang/reflect/Method;"⟩) ordinal).map
      fun o => .ref (.object o)
  | .index => some (.word (UInt32.ofNat ordinal))
  | .name => some (.ref (.object (world.text (spec.name ++ spec.proto.text))))

def convert (type : TypeDescriptor) (answer : Ref Ω) : Ending Ω :=
  if type.isVoid then .returned []
  else match type.primitive? with
    | none => if world.isInstance answer type.text then .returned [.ref answer] else .threw
    | some p =>
      if world.isInstance answer (boxing p).owner then
        match world.unbox p answer with
        | some ws => .returned (ws.val.map .word)
        | none => .threw
      else .threw

def handlerCall (binding : HandlerBinding) (owner : String) (identity : Value Ω) (proxy : Ω)
    (args : List (Argument Ω)) : Call Ω where
  kind := if binding.isInterface then .interface else .virtual
  method := ⟨binding.handler, binding.invokeName, binding.invokeProto.text⟩
  args := [.ref (.object (world.field proxy ⟨owner, binding.field, binding.handler⟩)),
    .ref (.object proxy), identity, .ref (.array 0)]
  arrays := [⟨"[Ljava/lang/Object;", args.map world.pack⟩]

/-- What a proxied method is to do: call the handler once and convert its answer. It writes no
field. -/
def delegate (binding : HandlerBinding) (owner : String) (spec : MethodSpec) (ordinal : Nat)
    (proxy : Ω) (args : List (Argument Ω)) : Halt Ω :=
  match world.identity binding owner spec ordinal with
  | none => ⟨[], [], .threw⟩
  | some identity =>
    let call := world.handlerCall binding owner identity proxy args
    ⟨[call], [], world.convert spec.returns (world.answer call)⟩

/-- The outside after some of its fields were written. -/
def after [DecidableEq Ω] (stores : List ((Ω × MemberRef) × Ref Ω)) : World Ω :=
  { world with
    field o member :=
      match stores.lookup (o, member) with
      | some (.object held) => held
      | _ => world.field o member }

end World

/-- What a constructor is to do: call that of the superclass on the new object, and keep the handler
in its field. -/
def construct {Ω : Type} (binding : HandlerBinding) (owner superclass : String)
    (proxy handler : Ω) : Halt Ω where
  calls := [⟨.direct, ⟨superclass, "<init>", "()V"⟩, [.ref (.object proxy)], []⟩]
  stores := [((proxy, ⟨owner, binding.field, binding.handler⟩), .object handler)]
  ending := .returned []

end DexForge.Machine
