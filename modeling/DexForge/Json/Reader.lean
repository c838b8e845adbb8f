import DexForge.Json.Token

/-! # Reading JSON

Tokens are fed to a machine whose stack holds the containers that are still open, so nesting costs
no recursion.
-/
set_option autoImplicit false

namespace DexForge

/-- How many containers may be open at once, and whether every value has to be well formed. -/
structure JsonRules where
  maxOpen : Option Nat
  wellFormed : Bool

/-- For readers that keep every value. -/
def JsonRules.kept : JsonRules := ⟨some 127, true⟩

/-- For readers that pass over what they do not know. -/
def JsonRules.skimmed : JsonRules := ⟨none, false⟩

namespace JsonReader

/-- An open container, its contents in reverse order. A key is `none` when it is malformed, and then
so is the object. -/
inductive Frame where
  | array (items : List JsonValue)
  | object (members : List (String × JsonValue)) (isMalformed : Bool) (key : Option String)

inductive Expected where
  | value | valueOrClose | key | keyOrClose | colon | separator
  | nothing (result : JsonValue)

structure State where
  stack : List Frame
  expected : Expected

def State.start : State := ⟨[], .value⟩

def State.complete (stack : List Frame) (value : JsonValue) : State :=
  match stack with
  | [] => ⟨[], .nothing value⟩
  | .array items :: outer => ⟨.array (value :: items) :: outer, .separator⟩
  | .object members isMalformed (some key) :: outer =>
    ⟨.object ((key, value) :: members) isMalformed none :: outer, .separator⟩
  | .object members _ none :: outer => ⟨.object members true none :: outer, .separator⟩

def State.closeArray : List Frame → Option State
  | .array items :: outer => some (.complete outer (.array items.reverse))
  | _ => none

def State.closeObject : List Frame → Option State
  | .object members isMalformed _ :: outer =>
    some (.complete outer (if isMalformed then .malformed else .object members.reverse))
  | _ => none

def State.enter (rules : JsonRules) (stack : List Frame) (frame : Frame) (expected : Expected) :
    Option State :=
  match rules.maxOpen with
  | none => some ⟨frame :: stack, expected⟩
  | some limit => if stack.length < limit then some ⟨frame :: stack, expected⟩ else none

def State.takeValue (rules : JsonRules) (stack : List Frame) : JsonToken → Option State
  | .scalar value => some (.complete stack value)
  | .text (some content) => some (.complete stack (.string content))
  | .text none => some (.complete stack .malformed)
  | .openArray => State.enter rules stack (.array []) .valueOrClose
  | .openObject => State.enter rules stack (.object [] false none) .keyOrClose
  | _ => none

def State.takeKey (stack : List Frame) : JsonToken → Option State
  | .text key =>
    match stack with
    | .object members isMalformed _ :: outer =>
      some ⟨.object members isMalformed key :: outer, .colon⟩
    | _ => none
  | _ => none

def State.takeSeparator (stack : List Frame) : JsonToken → Option State
  | .comma =>
    match stack with
    | .array _ :: _ => some ⟨stack, .value⟩
    | .object _ _ _ :: _ => some ⟨stack, .key⟩
    | [] => none
  | .closeArray => State.closeArray stack
  | .closeObject => State.closeObject stack
  | _ => none

def State.step (rules : JsonRules) (s : State) (token : JsonToken) : Option State :=
  if rules.wellFormed && !token.isWellFormed then none
  else match s.expected, token with
    | .valueOrClose, .closeArray => State.closeArray s.stack
    | .value, _ | .valueOrClose, _ => State.takeValue rules s.stack token
    | .keyOrClose, .closeObject => State.closeObject s.stack
    | .key, _ | .keyOrClose, _ => State.takeKey s.stack token
    | .colon, .colon => some ⟨s.stack, .value⟩
    | .colon, _ => none
    | .separator, _ => State.takeSeparator s.stack token
    | .nothing _, _ => none

def run (rules : JsonRules) : State → List JsonToken → Option JsonValue
  | ⟨_, .nothing result⟩, [] => some result
  | _, [] => none
  | s, token :: rest =>
    match s.step rules token with
    | some s => run rules s rest
    | none => none

end JsonReader

def JsonValue.parse? (rules : JsonRules) (text : String) : Option JsonValue :=
  match JsonToken.scan text.toList #[] with
  | some tokens => JsonReader.run rules .start tokens.toList
  | none => none

end DexForge
