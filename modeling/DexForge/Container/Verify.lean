import DexForge.Container.Basic
import DexForge.Text.Utf16

/-! # Verifying a container

A loaded container is verified when every table is strictly sorted, every index is in range and
every method body decodes and stays inside its registers.
-/
set_option autoImplicit false

namespace DexForge

namespace Verify

/-- Position of the first entry that is not above the entry in front of it. -/
def descent? {α : Type} (cmp : α → α → Ordering) (position : Nat) (entries : List α) :
    Option Nat :=
  match entries with
  | a :: b :: rest =>
    if cmp a b = .lt then descent? cmp (position + 1) (b :: rest) else some position
  | _ => none

def sorted {α : Type} (table : TableName) (cmp : α → α → Ordering) (entries : Array α) :
    Except ContainerError Unit :=
  match descent? cmp 1 entries.toList with
  | some position => .error (.unsorted table position)
  | none => .ok ()

def each {α : Type} (check : α → Except ContainerError Unit) : List α → Except ContainerError Unit
  | [] => .ok ()
  | a :: rest =>
    match check a with
    | .ok _ => each check rest
    | .error e => .error e

/-- Drops the value of a lookup that is made for its range check only. -/
def resolves {α : Type} (lookup : Except ContainerError α) : Except ContainerError Unit :=
  lookup.map fun _ => ()

end Verify

namespace Container

open Verify

def verifyProto (c : Container) (proto : ProtoId) : Except ContainerError Unit := do
  resolves (c.string proto.shorty)
  resolves (c.typeText proto.returns)
  each (fun param => resolves (c.typeText param.toUInt32)) proto.params

def indices (count : Nat) : List UInt32 := (List.range count).map UInt32.ofNat

def verifyTables (c : Container) : Except ContainerError Unit := do
  sorted .string compare (c.strings.map Utf16.encode)
  sorted .type compare c.types
  each (fun name => resolves (c.string name)) c.types.toList
  each c.verifyProto c.protos.toList
  sorted .proto ProtoId.order c.protos
  each (fun i => resolves (c.fieldRef i)) (indices c.fields.size)
  sorted .field MemberId.order c.fields
  each (fun i => resolves (c.methodRef i)) (indices c.methods.size)
  sorted .method MemberId.order c.methods

def verifyReference (c : Container) (r : Reference) : Except ContainerError Unit :=
  match r.kind with
  | .string => resolves (c.string r.index)
  | .type => resolves (c.typeText r.index)
  | .field => resolves (c.fieldRef r.index)
  | .method => resolves (c.methodRef r.index)

def verifyInstruction (c : Container) (code : CodeItem) (i : Instruction) :
    Except ContainerError Unit :=
  match i.registers? with
  | none => .error .arithmeticOverflow
  | some registers =>
    match registers.find? (code.registers ≤ ·) with
    | some register => .error (.badRegister code.offset register code.registers)
    | none =>
      match i.reference? with
      | some r => c.verifyReference r
      | none => .ok ()

def verifyCode (c : Container) (code : CodeItem) : Except ContainerError Unit :=
  if code.registers < code.ins then .error (.badRegister code.offset code.ins code.registers)
  else do
    let instructions ← code.instructions
    each (fun entry => c.verifyInstruction code entry.2) instructions.toList

def verifyMethod (c : Container) (m : MethodEntry) : Except ContainerError Unit := do
  resolves (c.methodRef m.method)
  match m.code with
  | some code => c.verifyCode code
  | none => .ok ()

/-- Checks the interfaces behind those already `seen`. -/
def verifyInterfaces (c : Container) (owner : UInt32) (seen : List UInt16) :
    List UInt16 → Except ContainerError Unit
  | [] => .ok ()
  | interface :: rest => do
    let text ← c.typeText interface.toUInt32
    if seen.contains interface then
      .error (.duplicateInterface (← c.typeText owner) text)
    else c.verifyInterfaces owner (interface :: seen) rest

def verifyClass (c : Container) (d : ClassDef) : Except ContainerError Unit := do
  resolves (c.typeText d.type)
  if d.superclass ≠ noIndex then resolves (c.typeText d.superclass)
  if d.sourceFile ≠ noIndex then resolves (c.string d.sourceFile)
  c.verifyInterfaces d.type [] d.interfaces
  match d.data with
  | none => .ok ()
  | some data =>
    each (fun field => resolves (c.fieldRef field.field)) data.fields
    each c.verifyMethod data.methods

def verify (c : Container) : Except ContainerError Unit := do
  c.verifyTables
  each c.verifyClass c.classes.toList

end Container

end DexForge
