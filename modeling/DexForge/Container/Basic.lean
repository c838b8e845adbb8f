import DexForge.Access
import DexForge.Container.Error
import DexForge.Container.MapItem
import DexForge.Instruction.Codec

/-! # Containers

A container as its tables hold it: indices into other tables stay indices, and the accessors
resolve them to text.
-/
set_option autoImplicit false

namespace DexForge

/-- The index that stands for a missing superclass or source file. -/
def noIndex : UInt32 := 0xffffffff

structure ProtoId where
  shorty : UInt32
  returns : UInt32
  paramsOffset : UInt32
  params : List UInt16
deriving DecidableEq

def ProtoId.order (a b : ProtoId) : Ordering :=
  (compare a.returns b.returns).then (compare a.params b.params)

/-- A field, whose descriptor is its type, or a method, whose descriptor is its prototype. -/
structure MemberId where
  owner : UInt16
  descriptor : UInt16
  name : UInt32
deriving DecidableEq

def MemberId.order (a b : MemberId) : Ordering :=
  (compare a.owner b.owner).then
    ((compare a.name b.name).then (compare a.descriptor b.descriptor))

structure CodeItem where
  offset : UInt32
  registers : UInt16
  ins : UInt16
  outs : UInt16
  tries : UInt16
  debugInfo : UInt32
  units : List UInt16
deriving DecidableEq

structure FieldEntry where
  field : UInt32
  access : AccessFlags
deriving DecidableEq

structure MethodEntry where
  method : UInt32
  access : AccessFlags
  codeOffset : UInt32
  code : Option CodeItem
deriving DecidableEq

structure ClassData where
  staticFields : List FieldEntry
  instanceFields : List FieldEntry
  directMethods : List MethodEntry
  virtualMethods : List MethodEntry
deriving DecidableEq

namespace ClassData

def fields (d : ClassData) : List FieldEntry := d.staticFields ++ d.instanceFields

def methods (d : ClassData) : List MethodEntry := d.directMethods ++ d.virtualMethods

end ClassData

structure ClassDef where
  type : UInt32
  access : AccessFlags
  superclass : UInt32
  interfacesOffset : UInt32
  sourceFile : UInt32
  annotationsOffset : UInt32
  dataOffset : UInt32
  staticValuesOffset : UInt32
  interfaces : List UInt16
  data : Option ClassData
deriving DecidableEq

def ClassDef.words (d : ClassDef) : List UInt32 :=
  [d.type, d.access.bits, d.superclass, d.interfacesOffset, d.sourceFile, d.annotationsOffset,
   d.dataOffset, d.staticValuesOffset]

structure Container where
  bytes : Bytes
  header : Header
  strings : Array String
  types : Array UInt32
  protos : Array ProtoId
  fields : Array MemberId
  methods : Array MemberId
  classes : Array ClassDef
  map : Array MapItem

/-- A field or method with every index resolved. -/
structure MemberRef where
  owner : String
  name : String
  descriptor : String
deriving DecidableEq

namespace CodeItem

def disassembleFrom (codeOffset : UInt32) (pc : Nat) (units : List UInt16)
    (read : Array (Nat × Instruction)) : Except ContainerError (Array (Nat × Instruction)) :=
  match units with
  | [] => .ok read
  | unit :: rest =>
    match Instruction.decode? (unit :: rest) with
    | none => .error (.badInstruction codeOffset pc unit)
    | some i =>
      disassembleFrom codeOffset (pc + i.size) (rest.drop (i.size - 1)) (read.push (pc, i))
termination_by units.length
decreasing_by simp only [List.length_cons, List.length_drop]; omega

/-- The instructions, each with the position of its first unit. -/
def instructions (c : CodeItem) : Except ContainerError (Array (Nat × Instruction)) :=
  disassembleFrom c.offset 0 c.units #[]

end CodeItem

namespace Container

def entry {α : Type} (table : TableName) (entries : Array α) (index : UInt32) :
    Except ContainerError α :=
  match entries[index.toNat]? with
  | some a => .ok a
  | none => .error (.indexOutOfBounds table index entries.size)

def string (c : Container) (index : UInt32) : Except ContainerError String :=
  entry .string c.strings index

def typeText (c : Container) (index : UInt32) : Except ContainerError String := do
  c.string (← entry .type c.types index)

def protoText (c : Container) (index : UInt32) : Except ContainerError String := do
  let proto ← entry .proto c.protos index
  let params ← proto.params.mapM fun param => c.typeText param.toUInt32
  let returns ← c.typeText proto.returns
  return "(" ++ String.join params ++ ")" ++ returns

def memberRef (c : Container) (descriptorText : UInt32 → Except ContainerError String)
    (member : MemberId) : Except ContainerError MemberRef := do
  let owner ← c.typeText member.owner.toUInt32
  let name ← c.string member.name
  return ⟨owner, name, ← descriptorText member.descriptor.toUInt32⟩

def fieldRef (c : Container) (index : UInt32) : Except ContainerError MemberRef := do
  c.memberRef c.typeText (← entry .field c.fields index)

def methodRef (c : Container) (index : UInt32) : Except ContainerError MemberRef := do
  c.memberRef c.protoText (← entry .method c.methods index)

def findClass? (c : Container) (descriptor : String) : Option Nat :=
  c.classes.findIdx? fun d =>
    match c.typeText d.type with
    | .ok text => text == descriptor
    | .error _ => false

end Container

end DexForge
