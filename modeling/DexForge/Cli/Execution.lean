import DexForge.Cli.FileTree
import DexForge.Cli.Invocation
import DexForge.Container.Listing
import DexForge.Container.Loader
import DexForge.Container.Verify
import DexForge.Description.Json
import DexForge.Synthesis.Basic

/-! # Execution of commands -/
set_option autoImplicit false

namespace DexForge

inductive SynthFault where
  | io (path : String) (fault : FileFault)
  | description
  | synthesis (cause : SynthesisError)
  | verification (cause : ContainerError)
  | missingHandler (protocol : Protocol)

def SynthFault.message : SynthFault → String
  | io path fault => path ++ ": " ++ fault.message
  | description => "invalid capability description"
  | synthesis cause => cause.message
  | verification cause => "written container failed verification: " ++ cause.message
  | missingHandler protocol => "--protocol " ++ protocol.text ++ " requires --handler"

inductive DumpFault where
  | io (fault : FileFault)
  | container (cause : ContainerError)

def DumpFault.message : DumpFault → String
  | io fault => "io error: " ++ fault.message
  | container cause => cause.message

namespace SynthOptions

/-- Only the reflective protocol has a handler of its own. -/
def binding (options : SynthOptions) : Except SynthFault HandlerBinding :=
  let protocol : Except SynthFault HandlerBinding :=
    match options.protocol, options.handler with
    | .reflect, none => .ok .reflect
    | .reflect, some handler => .ok (.new handler .reflect)
    | .index, some handler => .ok (.new handler .index)
    | .name, some handler => .ok (.new handler .name)
    | other, none => .error (.missingHandler other)
  protocol.map fun b => { b with field := options.field.getD b.field }

/-- A single description gets a container of its own, any other number is a batch. -/
def synthesize (binding : HandlerBinding) : List ClassDescription → Except SynthFault Synthesized
  | [d] => (binding.synthesize d).mapError .synthesis
  | ds => (binding.synthesizeBatch ds).mapError .synthesis

def check (s : Synthesized) : Except SynthFault Unit :=
  match Container.load s.bytes with
  | .error cause => .error (.verification cause)
  | .ok c => c.verify.mapError .verification

def container (options : SynthOptions) (text : String) : Except SynthFault Synthesized :=
  match ClassDescription.parseList? text with
  | none => .error .description
  | some ds => do
    let s ← synthesize (← options.binding) ds
    if options.verify then check s
    return s

/-- Reads the input, and writes the output when everything went well. -/
def executeIn {m : Type → Type} [Monad m] (files : FileAccess m) (options : SynthOptions) :
    ExceptT SynthFault m Synthesized := do
  let text ← (files.readText options.input).adapt (.io options.input)
  let s ← options.container text
  (files.write options.output s.bytes).adapt (.io options.output)
  return s

/-- Gives the files as they are afterwards. -/
def execute (options : SynthOptions) (tree : FileTree) :
    Except SynthFault Synthesized × FileTree :=
  (options.executeIn FileTree.access).run tree

end SynthOptions

namespace DumpOptions

def listing (palette : Palette) (bytes : Bytes) : Except DumpFault String :=
  match Container.load bytes with
  | .error cause => .error (.container cause)
  | .ok c => (c.listing palette).mapError .container

def executeIn {m : Type → Type} [Monad m] (files : FileAccess m) (options : DumpOptions)
    (isTerminal : Bool) : ExceptT DumpFault m String := do
  let bytes ← (files.read options.file).adapt .io
  listing (.ofEnabled (options.color.isEnabled isTerminal)) bytes

def execute (options : DumpOptions) (isTerminal : Bool) (tree : FileTree) :
    Except DumpFault String :=
  ((options.executeIn FileTree.access isTerminal).run tree).1

end DumpOptions

end DexForge
