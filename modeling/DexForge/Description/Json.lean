import DexForge.Description.Basic
import DexForge.Json.Reader

/-! # Descriptions in JSON

A description is an object, or an array of its fields in the order name, superclass, interfaces,
source file and methods; a method likewise with name, parameters, return type and access. Fields
other than the name may be missing. In an object, a known key may stand only once and unknown ones
are passed over.
-/
set_option autoImplicit false

namespace DexForge

/-- The fields of a record as they were found, `none` for those that are missing. -/
abbrev JsonRecord (n : Nat) := Vector (Option JsonValue) n

namespace JsonRecord

variable {n : Nat}

/-- Fields given by position; the last ones may be missing. -/
def ofItems? (items : List JsonValue) : Option (JsonRecord n) :=
  if items.length ≤ n then some (Vector.ofFn fun i => items[i.val]?) else none

def addMember? (keys : Vector String n) (record : JsonRecord n) (member : String × JsonValue) :
    Option (JsonRecord n) :=
  match keys.finIdxOf? member.1 with
  | none => some record
  | some i => if record[i].isSome then none else some (record.set i (some member.2))

/-- Fields given by key, in any order. -/
def ofMembers? (keys : Vector String n) (members : List (String × JsonValue)) :
    Option (JsonRecord n) :=
  members.foldlM (addMember? keys) (Vector.replicate n none)

def ofJson? (keys : Vector String n) : JsonValue → Option (JsonRecord n)
  | .array items => ofItems? items
  | .object members => ofMembers? keys members
  | _ => none

end JsonRecord

namespace JsonValue

def text? : JsonValue → Option String
  | string text => some text
  | _ => none

def list? {α : Type} (item? : JsonValue → Option α) : JsonValue → Option (List α)
  | array items => items.mapM item?
  | _ => none

def texts? (value : JsonValue) : Option (List String) := value.list? text?

def nullableText? : JsonValue → Option (Option String)
  | null => some none
  | value => value.text?.map some

def optional {α : Type} (read? : JsonValue → Option α) (fallback : α) : Option JsonValue → Option α
  | none => some fallback
  | some value => read? value

end JsonValue

namespace AccessKeyword

/-- A keyword is a text, or an object with the keyword as its only key and `null` as the value. -/
def ofJson? : JsonValue → Option AccessKeyword
  | .string text => ofText? text
  | .object [(text, .null)] => ofText? text
  | _ => none

def toJson (keyword : AccessKeyword) : JsonValue := .string keyword.text

end AccessKeyword

namespace MethodDescription

def keys : Vector String 4 := #v["name", "params", "returns", "access"]

def ofJson? (value : JsonValue) : Option MethodDescription := do
  let record ← JsonRecord.ofJson? keys value
  let name ← record[0] >>= JsonValue.text?
  let params ← JsonValue.optional JsonValue.texts? [] record[1]
  let returns ← JsonValue.optional JsonValue.text? defaultReturns record[2]
  let access ← JsonValue.optional (JsonValue.list? AccessKeyword.ofJson?) defaultAccess record[3]
  return ⟨name, params, returns, access⟩

def toJson (m : MethodDescription) : JsonValue :=
  .object [("name", .string m.name), ("params", .array (m.params.map .string)),
    ("returns", .string m.returns), ("access", .array (m.access.map AccessKeyword.toJson))]

end MethodDescription

namespace ClassDescription

def keys : Vector String 5 := #v["name", "superclass", "interfaces", "source_file", "methods"]

def ofJson? (value : JsonValue) : Option ClassDescription := do
  let record ← JsonRecord.ofJson? keys value
  let name ← record[0] >>= JsonValue.text?
  let superclass ← JsonValue.optional JsonValue.text? defaultSuperclass record[1]
  let interfaces ← JsonValue.optional JsonValue.texts? [] record[2]
  let sourceFile ← JsonValue.optional JsonValue.nullableText? none record[3]
  let methods ← JsonValue.optional (JsonValue.list? MethodDescription.ofJson?) [] record[4]
  return ⟨name, superclass, interfaces, sourceFile, methods⟩

/-- The source file is written only when there is one. -/
def toJson (d : ClassDescription) : JsonValue :=
  .object <|
    [("name", .string d.name), ("superclass", .string d.superclass),
     ("interfaces", .array (d.interfaces.map .string))] ++
    d.sourceFile.toList.map (fun file => ("source_file", .string file)) ++
    [("methods", .array (d.methods.map MethodDescription.toJson))]

def listOfJson? (value : JsonValue) : Option (List ClassDescription) :=
  match ofJson? value with
  | some d => some [d]
  | none => value.list? ofJson?

def parse? (text : String) : Option ClassDescription :=
  JsonValue.parse? .skimmed text >>= ofJson?

def parseList? (text : String) : Option (List ClassDescription) :=
  JsonValue.parse? .kept text >>= listOfJson?

end ClassDescription

end DexForge
