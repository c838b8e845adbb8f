import DexForge.Pool.Catalog
import DexForge.Pool.Slot
import DexForge.Synthesis.Error
import DexForge.Text.Utf16

/-! # Pools

The entries that a container needs, each once, in the order of collection. An entry refers to other
entries by their slots. A request that fails half way leaves behind what it has collected.
-/
set_option autoImplicit false

namespace DexForge

structure ProtoKey where
  shorty : Slot .string
  returns : Slot .type
  params : List (Slot .type)
deriving DecidableEq, Hashable

/-- A field, whose descriptor is its type, or a method, whose descriptor is its prototype. -/
structure MemberKey (t : TableName) where
  owner : Slot .type
  name : Slot .string
  descriptor : Slot t
deriving DecidableEq, Hashable

instance (t : TableName) : LawfulBEq (MemberKey t) := inferInstance

/-- What a table collects. -/
abbrev Entry : TableName → Type
  | .string => String
  | .type => Slot .string
  | .proto => ProtoKey
  | .field => MemberKey .type
  | .method => MemberKey .proto

structure Pools where
  strings : Catalog String
  types : Catalog (Slot .string)
  protos : Catalog ProtoKey
  fields : Catalog (MemberKey .type)
  methods : Catalog (MemberKey .proto)

/-- An action on pools whose failure keeps the pools as they are at that moment. -/
abbrev Interning := ExceptT SynthesisError (StateM Pools)

namespace Pools

def empty : Pools := ⟨.empty, .empty, .empty, .empty, .empty⟩

def size (pools : Pools) : TableName → Nat
  | .string => pools.strings.size
  | .type => pools.types.size
  | .proto => pools.protos.size
  | .field => pools.fields.size
  | .method => pools.methods.size

/-- Gives the slot of an entry, which is added at the end of its table when it is new. -/
def add : {t : TableName} → Entry t → Pools → Slot t × Pools
  | .string, text, ⟨strings, types, protos, fields, methods⟩ =>
    let (i, strings) := strings.insert text
    (⟨i⟩, ⟨strings, types, protos, fields, methods⟩)
  | .type, name, ⟨strings, types, protos, fields, methods⟩ =>
    let (i, types) := types.insert name
    (⟨i⟩, ⟨strings, types, protos, fields, methods⟩)
  | .proto, key, ⟨strings, types, protos, fields, methods⟩ =>
    let (i, protos) := protos.insert key
    (⟨i⟩, ⟨strings, types, protos, fields, methods⟩)
  | .field, key, ⟨strings, types, protos, fields, methods⟩ =>
    let (i, fields) := fields.insert key
    (⟨i⟩, ⟨strings, types, protos, fields, methods⟩)
  | .method, key, ⟨strings, types, protos, fields, methods⟩ =>
    let (i, methods) := methods.insert key
    (⟨i⟩, ⟨strings, types, protos, fields, methods⟩)

/-- A text is measured only when it is new. -/
def addString (text : String) (pools : Pools) : Except SynthesisError (Slot .string) × Pools :=
  match pools.strings.find? text with
  | some i => (.ok ⟨i⟩, pools)
  | none =>
    let units := Utf16.length text
    if maxStringUnits < units then (.error (.encoding (.longString units)), pools)
    else
      let (slot, pools) := add (t := .string) text pools
      (.ok slot, pools)

end Pools

namespace Interning

def string (text : String) : Interning (Slot .string) :=
  ExceptT.mk (Pools.addString text)

def type (descriptor : String) : Interning (Slot .type) := do
  let name ← string descriptor
  modifyGet (Pools.add (t := .type) name)

def proto (descriptor : ProtoDescriptor) : Interning (Slot .proto) := do
  let shorty ← string descriptor.shorty
  let returns ← type descriptor.returns.text
  let params ← descriptor.params.mapM fun param => type param.text
  modifyGet (Pools.add (t := .proto) ⟨shorty, returns, params⟩)

def memberKey {t : TableName} (owner name : String) (descriptor : Interning (Slot t)) :
    Interning (MemberKey t) := do
  let owner ← type owner
  let name ← string name
  return ⟨owner, name, ← descriptor⟩

def field (owner name fieldType : String) : Interning (Slot .field) := do
  let key ← memberKey owner name (type fieldType)
  modifyGet (Pools.add (t := .field) key)

def method (owner name : String) (descriptor : ProtoDescriptor) : Interning (Slot .method) := do
  let key ← memberKey owner name (proto descriptor)
  modifyGet (Pools.add (t := .method) key)

end Interning

namespace Request

/-- Collects the entry that is asked for, with everything that it refers to. -/
def intern : {t : TableName} → Request t → Interning (Slot t)
  | _, .string text => Interning.string text
  | _, .type descriptor => Interning.type descriptor
  | _, .proto descriptor => Interning.proto descriptor
  | _, .field owner name descriptor => Interning.field owner name descriptor
  | _, .method owner name descriptor => Interning.method owner name descriptor

end Request

end DexForge
