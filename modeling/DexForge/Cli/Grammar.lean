/-! # Command lines

An option may take a value, in the same word or in the next one. A value waits until the next option
or operand, or the end of the line, shows that it is complete; only then is it checked. So an
unknown option is told before a fault of the value in front of it.
-/
set_option autoImplicit false

namespace DexForge

inductive UsageError where
  | invalidValue
  | missingOperand
  | unknownArgument
  | conflict
  | tooManyValues
  | invalidCommand
  | missingCommand
  | missingArguments
  | help
deriving DecidableEq, Repr

/-- Only a wish for help ends well. -/
def UsageError.exitCode : UsageError → UInt32
  | help => 0
  | _ => 2

/-- A value and a switch can be given once, a tally counts. -/
inductive ParameterKind where
  | value (accepts : String → Bool)
  | switch
  | tally
  | help

structure Parameter where
  key : String
  short : Option Char
  long : Option String
  kind : ParameterKind

structure Grammar where
  options : List Parameter
  operand : Option Parameter

namespace Grammar

def findShort? (g : Grammar) (c : Char) : Option Parameter :=
  g.options.find? fun p => p.short == some c

def findLong? (g : Grammar) (name : String) : Option Parameter :=
  g.options.find? fun p => p.long == some name

end Grammar

/-- What was given for each key, the latest first. -/
structure Matches where
  given : List (String × String)

namespace Matches

def has (m : Matches) (key : String) : Bool := (m.given.lookup key).isSome

def get? (m : Matches) (key : String) : Option String := m.given.lookup key

def count (m : Matches) (key : String) : Nat := (m.given.filter fun entry => entry.1 == key).length

def add (m : Matches) (key value : String) : Matches := ⟨(key, value) :: m.given⟩

def accept (m : Matches) (p : Parameter) (value : Option String) : Except UsageError Matches :=
  match p.kind with
  | .value accepts =>
    match value with
    | none => .error .invalidValue
    | some text =>
      if m.has p.key then .error .conflict
      else if accepts text then .ok (m.add p.key text)
      else .error .invalidValue
  | .switch => if m.has p.key then .error .conflict else .ok (m.add p.key "")
  | .tally => .ok (m.add p.key "")
  | .help => .error .help

end Matches

inductive Word where
  | escape
  | long (name : String) (value : Option String)
  | short (letters : List Char)
  | plain (text : String)

def Word.ofText (text : String) : Word :=
  match text.toList with
  | '-' :: '-' :: [] => escape
  | '-' :: '-' :: rest =>
    let name := rest.takeWhile (· != '=')
    match rest.drop name.length with
    | [] => long (String.ofList name) none
    | _ :: value => long (String.ofList name) (some (String.ofList value))
  | '-' :: c :: rest => short (c :: rest)
  | _ => plain text

/-- Behind an `escape` every word is an operand. -/
structure LineState where
  given : Matches
  pending : Option (Parameter × Option String)
  escaped : Bool
  hasOperand : Bool

namespace LineState

def start : LineState := ⟨⟨[]⟩, none, false, false⟩

def settle (s : LineState) : Except UsageError LineState :=
  match s.pending with
  | none => .ok s
  | some (p, value) => do return { s with given := ← s.given.accept p value, pending := none }

def enter (s : LineState) (p : Parameter) (value : Option String) :
    Except UsageError LineState := do
  let s ← s.settle
  return { s with given := ← s.given.accept p value }

def await (s : LineState) (p : Parameter) (value : Option String) :
    Except UsageError LineState := do
  let s ← s.settle
  return { s with pending := some (p, value) }

def takeLong (g : Grammar) (s : LineState) (name : String) (value : Option String) :
    Except UsageError LineState :=
  match g.findLong? name with
  | none => .error .unknownArgument
  | some p =>
    match p.kind, value with
    | .value _, some text => s.enter p (some text)
    | .value _, none => s.await p none
    | _, some _ => .error .tooManyValues
    | _, none => s.enter p none

/-- Letters can stand together; the first that takes a value takes the rest of the word. -/
def takeShort (g : Grammar) (s : LineState) : List Char → Except UsageError LineState
  | [] => .ok s
  | c :: rest =>
    match g.findShort? c with
    | none => .error .unknownArgument
    | some p =>
      match p.kind with
      | .value _ =>
        match rest with
        | [] => s.await p none
        | '=' :: value => s.enter p (some (String.ofList value))
        | value => s.enter p (some (String.ofList value))
      | _ =>
        match s.enter p none with
        | .ok s => takeShort g s rest
        | .error e => .error e

def takeOperand (g : Grammar) (s : LineState) (text : String) : Except UsageError LineState :=
  match g.operand with
  | none => .error .unknownArgument
  | some p =>
    if s.hasOperand then .error .unknownArgument
    else do return { ← s.await p (some text) with hasOperand := true }

/-- A plain word is the value of the option in front of it, if that still has none. -/
def takePlain (g : Grammar) (s : LineState) (text : String) : Except UsageError LineState :=
  match s.pending with
  | some (p, none) => .ok { s with pending := some (p, some text) }
  | _ => s.takeOperand g text

def step (g : Grammar) (s : LineState) (text : String) : Except UsageError LineState :=
  if s.escaped then s.takeOperand g text
  else match Word.ofText text with
    | .escape => .ok { s with escaped := true }
    | .long name value => s.takeLong g name value
    | .short letters => s.takeShort g letters
    | .plain text => s.takePlain g text

end LineState

def Grammar.read (g : Grammar) (words : List String) : Except UsageError Matches := do
  let s ← words.foldlM (LineState.step g) .start
  let s ← s.settle
  if g.operand.isSome && !s.hasOperand then .error .missingOperand else .ok s.given

end DexForge
