import DexForge.Container.TableName
import DexForge.Descriptor.ProtoDescriptor

/-! # Slots and requests

A request names an entry of an id table by its content. A slot is the position at which a pool
collected the entry; positions follow the order of collection and change when the tables are
finished.
-/
set_option autoImplicit false

namespace DexForge

structure Slot (t : TableName) where
  position : Nat
deriving DecidableEq, Hashable, Repr

instance (t : TableName) : LawfulBEq (Slot t) := inferInstance

/-- Type texts and names are taken as they are. -/
inductive Request : TableName → Type where
  | string (text : String) : Request .string
  | type (descriptor : String) : Request .type
  | proto (proto : ProtoDescriptor) : Request .proto
  | field (owner name type : String) : Request .field
  | method (owner name : String) (proto : ProtoDescriptor) : Request .method
deriving DecidableEq

end DexForge
