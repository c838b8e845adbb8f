import DexForge.Pool.Basic

/-! # What slots denote

The texts that a slot stands for, read through every table that its entry refers to.
-/
set_option autoImplicit false

namespace DexForge

structure ProtoTexts where
  shorty : String
  returns : String
  params : List String
deriving DecidableEq

/-- A field with the text of its type, or a method with the texts of its prototype. -/
structure MemberTexts (α : Type) where
  owner : String
  name : String
  descriptor : α
deriving DecidableEq

abbrev FieldTexts := MemberTexts String

abbrev MethodTexts := MemberTexts ProtoTexts

namespace Pools

def stringText? (pools : Pools) (slot : Slot .string) : Option String :=
  pools.strings.get? slot.position

def typeText? (pools : Pools) (slot : Slot .type) : Option String := do
  pools.stringText? (← pools.types.get? slot.position)

def keyTexts? (pools : Pools) (key : ProtoKey) : Option ProtoTexts := do
  return ⟨← pools.stringText? key.shorty, ← pools.typeText? key.returns,
    ← key.params.mapM pools.typeText?⟩

def protoTexts? (pools : Pools) (slot : Slot .proto) : Option ProtoTexts := do
  pools.keyTexts? (← pools.protos.get? slot.position)

def memberTexts? {t : TableName} {α : Type} (pools : Pools) (descriptor? : Slot t → Option α)
    (key : MemberKey t) : Option (MemberTexts α) := do
  return ⟨← pools.typeText? key.owner, ← pools.stringText? key.name, ← descriptor? key.descriptor⟩

def fieldTexts? (pools : Pools) (slot : Slot .field) : Option FieldTexts := do
  pools.memberTexts? pools.typeText? (← pools.fields.get? slot.position)

def methodTexts? (pools : Pools) (slot : Slot .method) : Option MethodTexts := do
  pools.memberTexts? pools.protoTexts? (← pools.methods.get? slot.position)

end Pools

end DexForge
