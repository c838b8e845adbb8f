import DexForge.Arithmetic
import DexForge.Pool.Tables
import DexForge.Proxy.Operation

/-! # Lowering

An operation becomes the narrowest instruction that does it, once the final indices are known.
-/
set_option autoImplicit false

namespace DexForge

namespace Lowering

/-- Some operands have room for the first sixteen registers only. -/
def narrow (reg : UInt8) : Except SynthesisError UInt8 :=
  if reg < 16 then .ok reg else .error (.encoding (.wideRegister reg))

def const (dst : UInt8) (value : Int32) : Instruction :=
  let n := value.toInt
  if dst < 16 ∧ -8 ≤ n ∧ n ≤ 7 then .const4 dst value.toInt8
  else if -32768 ≤ n ∧ n ≤ 32767 then .const16 dst value.toInt16
  else .const32 dst value

def constString (dst : UInt8) (string : UInt32) : Instruction :=
  if string < 65536 then .constString dst string.toUInt16 else .constStringJumbo dst string

/-- Whether each register is the successor of the one in front of it, `next` being the first. -/
def isRun (arithmetic : Arithmetic) (next : UInt16) : List UInt16 → Except SynthesisError Bool
  | [] => .ok true
  | reg :: rest =>
    -- the count goes on before the register is looked at, so it also goes past the last one
    match arithmetic.add16 next 1 with
    | none => .error .arithmeticOverflow
    | some after => if reg = next then isRun arithmetic after rest else .ok false

/-- Up to five low registers are named one by one; a run of up to 255 is named by its ends. -/
def invoke (arithmetic : Arithmetic) (kind : InvokeKind) (method : UInt16) (args : List UInt16) :
    Except SynthesisError Instruction :=
  if args.length ≤ 5 ∧ args.all (· < 16) then .ok (.invoke kind method (args.map UInt16.toUInt8))
  else do
    let first := args.headD 0
    if (← isRun arithmetic first args) && args.length ≤ 255 then
      .ok (.invokeRange kind method first (UInt8.ofNat args.length))
    else .error (.encoding (.scatteredArguments args))

end Lowering

namespace Operation

def lowerUnder (arithmetic : Arithmetic) (tables : Tables) :
    Operation Slot → Except SynthesisError Instruction
  | returnVoid => return .returnVoid
  | returnValue reg => return .returnValue reg
  | returnWide reg => return .returnWide reg
  | returnObject reg => return .returnObject reg
  | moveResult dst => return .moveResult dst
  | moveResultWide dst => return .moveResultWide dst
  | moveResultObject dst => return .moveResultObject dst
  | moveObject dst src => return .moveObjectFrom16 dst src
  | const dst value => return Lowering.const dst value
  | constString dst string => return Lowering.constString dst (← tables.string string)
  | checkCast reg type => return .checkCast reg (← tables.type type)
  | newArray dst size type =>
    return .newArray (← Lowering.narrow dst) (← Lowering.narrow size) (← tables.type type)
  | agetObject dst array index => return .agetObject dst array index
  | aputObject src array index => return .aputObject src array index
  | igetObject dst object field =>
    return .igetObject (← Lowering.narrow dst) (← Lowering.narrow object) (← tables.field field)
  | iputObject src object field =>
    return .iputObject (← Lowering.narrow src) (← Lowering.narrow object) (← tables.field field)
  | sgetObject dst field => return .sgetObject dst (← tables.field field)
  | invoke kind method args => do Lowering.invoke arithmetic kind (← tables.method method) args

def lower (tables : Tables) (op : Operation Slot) : Except SynthesisError Instruction :=
  op.lowerUnder .checked tables

end Operation

end DexForge
