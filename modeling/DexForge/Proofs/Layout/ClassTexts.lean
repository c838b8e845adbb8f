import DexForge.Proofs.Layout.Lookup

/-! # Classes as texts

A class definition with every index resolved, down to the operands of its code. Offsets are left out,
and of the two instructions that load a string the one with the wide index counts as the other.
-/
set_option autoImplicit false

namespace DexForge

def ReferenceKind.table : ReferenceKind → TableName
  | string => .string
  | type => .type
  | field => .field
  | method => .method

def Instruction.form : Instruction → Instruction
  | constString dst _ | constStringJumbo dst _ => .constString dst 0
  | checkCast reg _ => .checkCast reg 0
  | newArray dst size _ => .newArray dst size 0
  | igetObject dst object _ => .igetObject dst object 0
  | iputObject src object _ => .iputObject src object 0
  | sgetObject dst _ => .sgetObject dst 0
  | invoke kind _ args => .invoke kind 0 args
  | invokeRange kind _ first count => .invokeRange kind 0 first count
  | i => i

structure InstructionTexts where
  form : Instruction
  target : Option Pools.Item

structure CodeTexts where
  registers : UInt16
  ins : UInt16
  outs : UInt16
  tries : UInt16
  instructions : List InstructionTexts

structure FieldEntryTexts where
  field : FieldTexts
  access : AccessFlags

structure MethodEntryTexts where
  method : MethodTexts
  access : AccessFlags
  code : Option CodeTexts

structure MembersTexts where
  staticFields : List FieldEntryTexts
  instanceFields : List FieldEntryTexts
  directMethods : List MethodEntryTexts
  virtualMethods : List MethodEntryTexts

structure ClassTexts where
  type : String
  access : AccessFlags
  superclass : Option String
  interfaces : List String
  sourceFile : Option String
  members : Option MembersTexts

namespace Container

variable (c : Container)

def contents : (t : TableName) → UInt32 → Except ContainerError (Contents t)
  | .string, i => c.string i
  | .type, i => c.typeText i
  | .proto, i => c.protoTexts i
  | .field, i => c.fieldTexts i
  | .method, i => c.methodTexts i

def targetTexts (r : Reference) : Except ContainerError Pools.Item :=
  (c.contents r.kind.table r.index).map fun x => ⟨_, x⟩

def instructionTexts (i : Instruction) : Except ContainerError InstructionTexts := do
  return ⟨i.form, ← i.reference?.mapM c.targetTexts⟩

def codeTexts (code : CodeItem) : Except ContainerError CodeTexts := do
  let read ← code.instructions
  let instructions ← (read.toList.map Prod.snd).mapM c.instructionTexts
  return ⟨code.registers, code.ins, code.outs, code.tries, instructions⟩

def fieldEntryTexts (f : FieldEntry) : Except ContainerError FieldEntryTexts := do
  return ⟨← c.fieldTexts f.field, f.access⟩

def methodEntryTexts (m : MethodEntry) : Except ContainerError MethodEntryTexts := do
  return ⟨← c.methodTexts m.method, m.access, ← m.code.mapM c.codeTexts⟩

def membersTexts (d : ClassData) : Except ContainerError MembersTexts := do
  let staticFields ← d.staticFields.mapM c.fieldEntryTexts
  let instanceFields ← d.instanceFields.mapM c.fieldEntryTexts
  let directMethods ← d.directMethods.mapM c.methodEntryTexts
  return ⟨staticFields, instanceFields, directMethods, ← d.virtualMethods.mapM c.methodEntryTexts⟩

def optional (t : TableName) (index : UInt32) : Except ContainerError (Option (Contents t)) :=
  if index = noIndex then .ok none else (c.contents t index).map some

def classTexts (d : ClassDef) : Except ContainerError ClassTexts := do
  let type ← c.typeText d.type
  let superclass ← c.optional .type d.superclass
  let interfaces ← d.interfaces.mapM fun index => c.typeText index.toUInt32
  let sourceFile ← c.optional .string d.sourceFile
  return ⟨type, d.access, superclass, interfaces, sourceFile, ← d.data.mapM c.membersTexts⟩

/-- The definitions of the class, of which there should be one. -/
def definitionsOf (name : String) : List ClassDef :=
  c.classes.toList.filter fun d =>
    match c.typeText d.type with
    | .ok text => text == name
    | .error _ => false

end Container

end DexForge
