import DexForge.Arithmetic

/-! # Instructions

The instructions that a delegating method uses, with resolved registers and pool indices.
-/
set_option autoImplicit false

namespace DexForge

inductive InvokeKind where
  | virtual | super | direct | static | interface
deriving DecidableEq, Repr

namespace InvokeKind

def all : List InvokeKind := [virtual, super, direct, static, interface]

/-- Distance of the opcode from that of a virtual call. -/
def rank : InvokeKind → Nat
  | virtual => 0
  | super => 1
  | direct => 2
  | static => 3
  | interface => 4

def mnemonic : InvokeKind → String
  | virtual => "invoke-virtual"
  | super => "invoke-super"
  | direct => "invoke-direct"
  | static => "invoke-static"
  | interface => "invoke-interface"

end InvokeKind

inductive ReferenceKind where
  | string | type | field | method
deriving DecidableEq, Repr

def ReferenceKind.label : ReferenceKind → String
  | string => "string"
  | type => "type"
  | field => "field"
  | method => "method"

structure Reference where
  kind : ReferenceKind
  index : UInt32
deriving DecidableEq, Repr

/-- Registers are 8 or 16 bits wide as the format of the instruction has them. `const4`, `newArray`,
`igetObject`, `iputObject` and `invoke` have room for 4-bit registers only, `const4` for literals
from -8 to 7 and `invoke` for five arguments. -/
inductive Instruction where
  | returnVoid
  | returnValue (reg : UInt8)
  | returnWide (reg : UInt8)
  | returnObject (reg : UInt8)
  | moveResult (dst : UInt8)
  | moveResultWide (dst : UInt8)
  | moveResultObject (dst : UInt8)
  | moveFrom16 (dst : UInt8) (src : UInt16)
  | moveWideFrom16 (dst : UInt8) (src : UInt16)
  | moveObjectFrom16 (dst : UInt8) (src : UInt16)
  | const4 (dst : UInt8) (value : Int8)
  | const16 (dst : UInt8) (value : Int16)
  | const32 (dst : UInt8) (value : Int32)
  | constString (dst : UInt8) (string : UInt16)
  | constStringJumbo (dst : UInt8) (string : UInt32)
  | checkCast (reg : UInt8) (type : UInt16)
  | newArray (dst size : UInt8) (type : UInt16)
  | agetObject (dst array index : UInt8)
  | aputObject (src array index : UInt8)
  | igetObject (dst object : UInt8) (field : UInt16)
  | iputObject (src object : UInt8) (field : UInt16)
  | sgetObject (dst : UInt8) (field : UInt16)
  | invoke (kind : InvokeKind) (method : UInt16) (args : List UInt8)
  | invokeRange (kind : InvokeKind) (method first : UInt16) (count : UInt8)
deriving DecidableEq

namespace Instruction

def size : Instruction → Nat
  | returnVoid | returnValue _ | returnWide _ | returnObject _ | moveResult _ | moveResultWide _
  | moveResultObject _ | const4 _ _ => 1
  | const32 _ _ | constStringJumbo _ _ | invoke _ _ _ | invokeRange _ _ _ _ => 3
  | _ => 2

def reference? : Instruction → Option Reference
  | constString _ string => some ⟨.string, string.toUInt32⟩
  | constStringJumbo _ string => some ⟨.string, string⟩
  | checkCast _ type | newArray _ _ type => some ⟨.type, type.toUInt32⟩
  | igetObject _ _ field | iputObject _ _ field | sgetObject _ field =>
    some ⟨.field, field.toUInt32⟩
  | invoke _ method _ | invokeRange _ method _ _ => some ⟨.method, method.toUInt32⟩
  | _ => none

/-- A register and its successor, which hold a wide value together. -/
def pair (reg : UInt16) : List UInt16 := [reg, reg + 1]

/-- The registers that an instruction names, counted in 16 bits: `none` when they go on behind the
last one. -/
def registers? : Instruction → Option (List UInt16)
  | returnVoid => some []
  | returnValue reg | returnObject reg | checkCast reg _ => some [reg.toUInt16]
  | returnWide reg | moveResultWide reg => some (pair reg.toUInt16)
  | moveResult dst | moveResultObject dst | const4 dst _ | const16 dst _ | const32 dst _
  | constString dst _ | constStringJumbo dst _ | sgetObject dst _ => some [dst.toUInt16]
  | moveFrom16 dst src | moveObjectFrom16 dst src => some [dst.toUInt16, src]
  | moveWideFrom16 dst src =>
    (Arithmetic.checked.add16 src 1).map fun next => pair dst.toUInt16 ++ [src, next]
  | newArray a b _ | igetObject a b _ | iputObject a b _ => some [a.toUInt16, b.toUInt16]
  | agetObject a b c | aputObject a b c => some [a.toUInt16, b.toUInt16, c.toUInt16]
  | invoke _ _ args => some (args.map UInt8.toUInt16)
  | invokeRange _ _ first count =>
    (List.range count.toNat).mapM fun i => Arithmetic.checked.add16 first (UInt16.ofNat i)

def WellFormed : Instruction → Prop
  | const4 dst value => dst < 16 ∧ -8 ≤ value.toInt ∧ value.toInt ≤ 7
  | newArray a b _ | igetObject a b _ | iputObject a b _ => a < 16 ∧ b < 16
  | invoke _ _ args => args.length ≤ 5 ∧ ∀ arg ∈ args, arg < 16
  | _ => True

end Instruction

end DexForge
