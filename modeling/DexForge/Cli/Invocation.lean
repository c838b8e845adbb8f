import DexForge.Cli.Grammar

/-! # Invocations

The two commands, their options, and how verbose the program should be.
-/
set_option autoImplicit false

namespace DexForge

inductive Protocol where
  | reflect | index | name
deriving DecidableEq, Repr

namespace Protocol

def all : List Protocol := [reflect, index, name]

def text : Protocol → String
  | reflect => "reflect"
  | index => "index"
  | name => "name"

def ofText? (text : String) : Option Protocol := all.find? fun p => p.text == text

end Protocol

inductive ColorChoice where
  | auto | always | never
deriving DecidableEq, Repr

namespace ColorChoice

def all : List ColorChoice := [auto, always, never]

def text : ColorChoice → String
  | auto => "auto"
  | always => "always"
  | never => "never"

def ofText? (text : String) : Option ColorChoice := all.find? fun c => c.text == text

/-- Without a choice it depends on the output being a terminal. -/
def isEnabled (c : ColorChoice) (isTerminal : Bool) : Bool :=
  match c with
  | auto => isTerminal
  | always => true
  | never => false

end ColorChoice

inductive Verbosity where
  | warn | debug | trace
deriving DecidableEq, Repr

def Verbosity.ofCount : Nat → Verbosity
  | 0 => warn
  | 1 => debug
  | _ => trace

structure SynthOptions where
  input : String
  output : String
  protocol : Protocol
  handler : Option String
  field : Option String
  verify : Bool
deriving DecidableEq, Repr

structure DumpOptions where
  file : String
  color : ColorChoice
deriving DecidableEq, Repr

inductive Command where
  | synth (options : SynthOptions)
  | dump (options : DumpOptions)
deriving DecidableEq, Repr

structure Invocation where
  verbosity : Verbosity
  command : Command
deriving DecidableEq, Repr

namespace Invocation

def isPath (text : String) : Bool := !text.isEmpty

def verbose : Parameter := ⟨"verbose", some 'v', none, .tally⟩

def help : Parameter := ⟨"help", some 'h', some "help", .help⟩

def valueOption (key : String) (accepts : String → Bool) : Parameter :=
  ⟨key, none, some key, .value accepts⟩

def operand (key : String) : Parameter := ⟨key, none, none, .value isPath⟩

def topGrammar : Grammar := ⟨[verbose, help], none⟩

def synthGrammar : Grammar where
  options :=
    [⟨"output", some 'o', some "output", .value isPath⟩,
     valueOption "protocol" fun text => (Protocol.ofText? text).isSome,
     valueOption "handler" fun _ => true,
     valueOption "field" fun _ => true,
     ⟨"verify", none, some "verify", .switch⟩,
     verbose, help]
  operand := some (operand "input")

def dumpGrammar : Grammar where
  options := [valueOption "color" fun text => (ColorChoice.ofText? text).isSome, verbose, help]
  operand := some (operand "file")

def synthOptions (m : Matches) : SynthOptions where
  input := (m.get? "input").getD ""
  output := (m.get? "output").getD "classes.dex"
  protocol := (m.get? "protocol" >>= Protocol.ofText?).getD .reflect
  handler := m.get? "handler"
  field := m.get? "field"
  verify := m.has "verify"

def dumpOptions (m : Matches) : DumpOptions where
  file := (m.get? "file").getD ""
  color := (m.get? "color" >>= ColorChoice.ofText?).getD .auto

inductive CommandName where
  | synth | dump | help
deriving DecidableEq, Repr

def CommandName.ofText? : String → Option CommandName
  | "synth" => some synth
  | "dump" => some dump
  | "help" => some help
  | _ => none

/-- Help can be asked for one command, which may be `help` itself. -/
def helpFor : List String → UsageError
  | [] => .help
  | [name] => if (CommandName.ofText? name).isSome then .help else .invalidCommand
  | _ => .invalidCommand

/-- A tally behind the command counts, else the one in front of it. -/
def tally (before behind : Matches) : Nat :=
  if behind.has verbose.key then behind.count verbose.key else before.count verbose.key

def ofCommand (before : Matches) (name : CommandName) (words : List String) :
    Except UsageError Invocation :=
  match name with
  | .help => .error (helpFor words)
  | .synth => do
    let m ← synthGrammar.read words
    return ⟨.ofCount (tally before m), .synth (synthOptions m)⟩
  | .dump => do
    let m ← dumpGrammar.read words
    return ⟨.ofCount (tally before m), .dump (dumpOptions m)⟩

/-- Reads the words in front of the command. A command does not count behind an escape. -/
def ofWords (s : LineState) : List String → Except UsageError Invocation
  | [] => .error (if s.given.given.isEmpty then .missingArguments else .missingCommand)
  | word :: rest =>
    match CommandName.ofText? word with
    | some name => if s.escaped then .error .unknownArgument else ofCommand s.given name rest
    | none =>
      if s.escaped then .error .invalidCommand
      else match Word.ofText word with
        | .plain _ => .error .invalidCommand
        | _ =>
          match s.step topGrammar word with
          | .ok s => ofWords s rest
          | .error e => .error e

def parse (words : List String) : Except UsageError Invocation := ofWords .start words

end Invocation

end DexForge
