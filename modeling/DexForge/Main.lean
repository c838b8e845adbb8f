import DexForge.Cli.Execution

/-! # The command-line program -/
set_option autoImplicit false

namespace DexForge

def usage : String :=
  "Usage: dexforge [-v]... <COMMAND>\n\n" ++
  "Commands:\n" ++
  "  synth <INPUT> [-o <FILE>] [--protocol reflect|index|name] [--handler <TYPE>]\n" ++
  "        [--field <NAME>] [--verify]\n" ++
  "  dump <FILE> [--color auto|always|never]\n" ++
  "  help [COMMAND]"

def UsageError.message : UsageError → String
  | invalidValue => "invalid value"
  | missingOperand => "a required argument was not provided"
  | unknownArgument => "unexpected argument"
  | conflict => "an argument cannot be used multiple times"
  | tooManyValues => "unexpected value"
  | invalidCommand => "unrecognized command"
  | missingCommand => "a command is required"
  | missingArguments | help => "help"

def refuse (error : UsageError) : IO UInt32 := do
  match error with
  | .help => IO.println usage
  | .missingArguments => IO.eprintln usage
  | other => IO.eprintln ("error: " ++ other.message ++ "\n\n" ++ usage)
  return error.exitCode

def fail (message : String) : IO UInt32 := do
  IO.eprintln ("error: " ++ message)
  return 1

/-- The files of the system, whose own faults end a command. -/
def systemFiles : FileAccess IO where
  read path := return (← IO.FS.readBinFile path).data
  write path bytes := IO.FS.writeBinFile path ⟨bytes⟩

def runSynth (options : SynthOptions) : IO UInt32 := do
  match ← (options.executeIn systemFiles).run with
  | .error fault => fail fault.message
  | .ok s =>
    IO.println ("wrote " ++ toString s.bytes.size ++ " bytes to " ++ options.output ++
      " (fingerprint " ++ Digits.hex 8 s.fingerprint.toNat ++ ")")
    return 0

def runDump (options : DumpOptions) : IO UInt32 := do
  let isTerminal ← (← IO.getStdout).isTty
  match ← (options.executeIn systemFiles isTerminal).run with
  | .error fault => fail (options.file ++ ": " ++ fault.message)
  | .ok text =>
    IO.print text
    return 0

def run (command : Command) : IO UInt32 := do
  try
    match command with
    | .synth options => runSynth options
    | .dump options => runDump options
  catch e => fail (toString e)

end DexForge

def main (args : List String) : IO UInt32 :=
  match DexForge.Invocation.parse args with
  | .error error => DexForge.refuse error
  | .ok invocation => DexForge.run invocation.command
