import DexForge.Container.Basic
import DexForge.Pool.Basic
import DexForge.Pool.Ranked

/-! # Finished tables

The five id tables in the order that the format asks for, and the place of each slot in them.
Strings are ordered by UTF-16 units, types by string, prototypes by return type and then parameters,
fields by owner, name and type, methods by owner, name and prototype.
-/
set_option autoImplicit false

namespace DexForge

structure ProtoRow where
  shorty : UInt32
  returns : UInt16
  params : List UInt16
deriving DecidableEq

structure Tables where
  strings : Ranked String
  types : Ranked UInt32
  protos : Ranked ProtoRow
  fields : Ranked MemberId
  methods : Ranked MemberId

/-- A prototype by the places of what it refers to. -/
structure ProtoPlaces where
  shorty : Nat
  returns : Nat
  params : List Nat
deriving DecidableEq

structure MemberPlaces where
  owner : Nat
  name : Nat
  descriptor : Nat
deriving DecidableEq

namespace ProtoPlaces

def order (a b : ProtoPlaces) : Ordering :=
  (compare a.returns b.returns).then (compare a.params b.params)

def narrow (p : ProtoPlaces) : ProtoRow :=
  ⟨UInt32.ofNat p.shorty, UInt16.ofNat p.returns, p.params.map UInt16.ofNat⟩

end ProtoPlaces

namespace MemberPlaces

def order (a b : MemberPlaces) : Ordering :=
  (compare a.owner b.owner).then
    ((compare a.name b.name).then (compare a.descriptor b.descriptor))

def narrow (m : MemberPlaces) : MemberId :=
  ⟨UInt16.ofNat m.owner, UInt16.ofNat m.descriptor, UInt32.ofNat m.name⟩

end MemberPlaces

/-- The five tables in final order, with places of any size. -/
structure Ranking where
  strings : Ranked String
  types : Ranked Nat
  protos : Ranked ProtoPlaces
  fields : Ranked MemberPlaces
  methods : Ranked MemberPlaces

def Ranking.narrow (r : Ranking) : Tables where
  strings := r.strings
  types := r.types.map UInt32.ofNat
  protos := r.protos.map ProtoPlaces.narrow
  fields := r.fields.map MemberPlaces.narrow
  methods := r.methods.map MemberPlaces.narrow

namespace Tables

def place {α : Type} {t : TableName} (table : Ranked α) (slot : Slot t) :
    Except SynthesisError Nat :=
  match table.rank[slot.position]? with
  | some i => .ok i
  | none => .error (.dangling t slot.position)

def place32 {α : Type} {t : TableName} (table : Ranked α) (slot : Slot t) :
    Except SynthesisError UInt32 :=
  (place table slot).map UInt32.ofNat

/-- Tables other than that of the strings are small enough for 16-bit indices. -/
def place16 {α : Type} {t : TableName} (table : Ranked α) (slot : Slot t) :
    Except SynthesisError UInt16 :=
  (place table slot).map UInt16.ofNat

def string (tables : Tables) (slot : Slot .string) : Except SynthesisError UInt32 :=
  place32 tables.strings slot

def type (tables : Tables) (slot : Slot .type) : Except SynthesisError UInt16 :=
  place16 tables.types slot

def field (tables : Tables) (slot : Slot .field) : Except SynthesisError UInt16 :=
  place16 tables.fields slot

def method (tables : Tables) (slot : Slot .method) : Except SynthesisError UInt16 :=
  place16 tables.methods slot

def placeMember {α : Type} {t : TableName} (types : Ranked Nat) (strings : Ranked String)
    (descriptors : Ranked α) (key : MemberKey t) : Except SynthesisError MemberPlaces := do
  let owner ← place types key.owner
  let name ← place strings key.name
  return ⟨owner, name, ← place descriptors key.descriptor⟩

def rankStrings (texts : List String) : Ranked String :=
  (Ranked.ofList (fun a b => compare a.2 b.2) (texts.map fun text => (text, Utf16.encode text))).map
    Prod.fst

end Tables

namespace Pools

def checkSize (pools : Pools) (t : TableName) : Except SynthesisError Unit :=
  if maxIndexed < pools.size t then .error (.encoding (.crowdedTable t (pools.size t))) else .ok ()

/-- Sorts every table, each by the places that its entries refer to in the tables before it. -/
def ranking (pools : Pools) : Except SynthesisError Ranking := do
  let strings := Tables.rankStrings pools.strings.entries.toList
  let types := Ranked.ofList compare (← pools.types.entries.toList.mapM (Tables.place strings))
  let protos := Ranked.ofList ProtoPlaces.order <|
    ← pools.protos.entries.toList.mapM fun key => do
      let shorty ← Tables.place strings key.shorty
      let returns ← Tables.place types key.returns
      return ⟨shorty, returns, ← key.params.mapM (Tables.place types)⟩
  let fields := Ranked.ofList MemberPlaces.order <|
    ← pools.fields.entries.toList.mapM (Tables.placeMember types strings types)
  let methods := Ranked.ofList MemberPlaces.order <|
    ← pools.methods.entries.toList.mapM (Tables.placeMember types strings protos)
  return ⟨strings, types, protos, fields, methods⟩

def finish (pools : Pools) : Except SynthesisError Tables := do
  pools.checkSize .type
  pools.checkSize .proto
  pools.checkSize .field
  pools.checkSize .method
  return (← pools.ranking).narrow

end Pools

end DexForge
