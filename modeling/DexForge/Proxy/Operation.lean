import DexForge.Instruction.Basic
import DexForge.Pool.Script
import DexForge.Proxy.MethodSpec

/-! # Operations

What a method body does, before operand widths are chosen. `ρ` tells how an operation refers to an
entry of an id table: by content (`Request`) or by the place it got in the pools (`Slot`).
-/
set_option autoImplicit false

namespace DexForge

inductive Operation (ρ : TableName → Type) where
  | returnVoid
  | returnValue (reg : UInt8)
  | returnWide (reg : UInt8)
  | returnObject (reg : UInt8)
  | moveResult (dst : UInt8)
  | moveResultWide (dst : UInt8)
  | moveResultObject (dst : UInt8)
  | moveObject (dst : UInt8) (src : UInt16)
  | const (dst : UInt8) (value : Int32)
  | constString (dst : UInt8) (string : ρ .string)
  | checkCast (reg : UInt8) (type : ρ .type)
  | newArray (dst size : UInt8) (type : ρ .type)
  | agetObject (dst array index : UInt8)
  | aputObject (src array index : UInt8)
  | igetObject (dst object : UInt8) (field : ρ .field)
  | iputObject (src object : UInt8) (field : ρ .field)
  | sgetObject (dst : UInt8) (field : ρ .field)
  | invoke (kind : InvokeKind) (method : ρ .method) (args : List UInt16)

def Operation.mnemonic {ρ : TableName → Type} : Operation ρ → String
  | returnVoid => "return-void"
  | returnValue _ => "return"
  | returnWide _ => "return-wide"
  | returnObject _ => "return-object"
  | moveResult _ => "move-result"
  | moveResultWide _ => "move-result-wide"
  | moveResultObject _ => "move-result-object"
  | moveObject _ _ => "move-object"
  | const _ _ => "const"
  | constString _ _ => "const-string"
  | checkCast _ _ => "check-cast"
  | newArray _ _ _ => "new-array"
  | agetObject _ _ _ => "aget-object"
  | aputObject _ _ _ => "aput-object"
  | igetObject _ _ _ => "iget-object"
  | iputObject _ _ _ => "iput-object"
  | sgetObject _ _ => "sget-object"
  | invoke kind _ _ => kind.mnemonic

def Operation.intern : Operation Request → Script (Operation Slot)
  | returnVoid => return .returnVoid
  | returnValue reg => return .returnValue reg
  | returnWide reg => return .returnWide reg
  | returnObject reg => return .returnObject reg
  | moveResult dst => return .moveResult dst
  | moveResultWide dst => return .moveResultWide dst
  | moveResultObject dst => return .moveResultObject dst
  | moveObject dst src => return .moveObject dst src
  | const dst value => return .const dst value
  | constString dst string => return .constString dst (← Script.request string)
  | checkCast reg type => return .checkCast reg (← Script.request type)
  | newArray dst size type => return .newArray dst size (← Script.request type)
  | agetObject dst array index => return .agetObject dst array index
  | aputObject src array index => return .aputObject src array index
  | igetObject dst object field => return .igetObject dst object (← Script.request field)
  | iputObject src object field => return .iputObject src object (← Script.request field)
  | sgetObject dst field => return .sgetObject dst (← Script.request field)
  | invoke kind method args => return .invoke kind (← Script.request method) args

/-- A method with its frame: all registers, those of the arguments, and those that the largest call
passes on. -/
structure MethodBody (ρ : TableName → Type) where
  spec : MethodSpec
  method : ρ .method
  registers : UInt16
  ins : UInt16
  outs : UInt16
  code : List (Operation ρ)

/-- Requests what the operations refer to, in order, and then the method itself. -/
def MethodBody.intern (body : MethodBody Request) : Script (MethodBody Slot) := do
  let code ← body.code.mapM Operation.intern
  let method ← Script.request body.method
  return { spec := body.spec, method, registers := body.registers, ins := body.ins,
           outs := body.outs, code }

end DexForge
