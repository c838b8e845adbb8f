import DexForge.Instruction.Basic

/-! # Instructions as code units

The low byte of the first unit is the opcode.
-/
set_option autoImplicit false

namespace DexForge

namespace Opcode

def moveFrom16 : UInt8 := 0x02
def moveWideFrom16 : UInt8 := 0x05
def moveObjectFrom16 : UInt8 := 0x08
def moveResult : UInt8 := 0x0a
def moveResultWide : UInt8 := 0x0b
def moveResultObject : UInt8 := 0x0c
def returnVoid : UInt8 := 0x0e
def returnValue : UInt8 := 0x0f
def returnWide : UInt8 := 0x10
def returnObject : UInt8 := 0x11
def const4 : UInt8 := 0x12
def const16 : UInt8 := 0x13
def const32 : UInt8 := 0x14
def constString : UInt8 := 0x1a
def constStringJumbo : UInt8 := 0x1b
def checkCast : UInt8 := 0x1f
def newArray : UInt8 := 0x23
def agetObject : UInt8 := 0x46
def aputObject : UInt8 := 0x4d
def igetObject : UInt8 := 0x54
def iputObject : UInt8 := 0x5b
def sgetObject : UInt8 := 0x62

def invoke (kind : InvokeKind) : UInt8 := UInt8.ofNat (0x6e + kind.rank)

def invokeRange (kind : InvokeKind) : UInt8 := UInt8.ofNat (0x74 + kind.rank)

def invokeKind? (opcode : UInt8) : Option InvokeKind :=
  InvokeKind.all.find? fun kind => invoke kind == opcode

def invokeRangeKind? (opcode : UInt8) : Option InvokeKind :=
  InvokeKind.all.find? fun kind => invokeRange kind == opcode

end Opcode

namespace Instruction

/-- Two bytes as one unit, the first one low. -/
def joinBytes (low high : UInt8) : UInt16 := UInt16.ofNat (low.toNat + high.toNat * 0x100)

def lowByte (unit : UInt16) : UInt8 := UInt8.ofNat (unit.toNat % 0x100)

def highByte (unit : UInt16) : UInt8 := UInt8.ofNat (unit.toNat / 0x100)

def joinNibbles (low high : UInt8) : UInt8 := UInt8.ofNat (low.toNat % 16 + high.toNat % 16 * 16)

def lowNibble (byte : UInt8) : UInt8 := UInt8.ofNat (byte.toNat % 16)

def highNibble (byte : UInt8) : UInt8 := UInt8.ofNat (byte.toNat / 16)

def joinUnits (low high : UInt16) : UInt32 := UInt32.ofNat (low.toNat + high.toNat * 0x10000)

def lowUnit (word : UInt32) : UInt16 := UInt16.ofNat (word.toNat % 0x10000)

def highUnit (word : UInt32) : UInt16 := UInt16.ofNat (word.toNat / 0x10000)

def signedNibble (byte : UInt8) : Int8 := byte.toInt8 >>> 4

/-- The units of a call whose argument registers are named one by one. The fifth register stands
beside the argument count. -/
def encodeInvoke (kind : InvokeKind) (method : UInt16) (args : List UInt8) : List UInt16 :=
  let reg (i : Nat) : UInt8 := args.getD i 0
  let fifth := if args.length = 5 then reg 4 else 0
  [joinBytes (Opcode.invoke kind) (joinNibbles fifth (UInt8.ofNat args.length)), method,
   joinBytes (joinNibbles (reg 0) (reg 1)) (joinNibbles (reg 2) (reg 3))]

def encode : Instruction → List UInt16
  | returnVoid => [joinBytes Opcode.returnVoid 0]
  | returnValue reg => [joinBytes Opcode.returnValue reg]
  | returnWide reg => [joinBytes Opcode.returnWide reg]
  | returnObject reg => [joinBytes Opcode.returnObject reg]
  | moveResult dst => [joinBytes Opcode.moveResult dst]
  | moveResultWide dst => [joinBytes Opcode.moveResultWide dst]
  | moveResultObject dst => [joinBytes Opcode.moveResultObject dst]
  | moveFrom16 dst src => [joinBytes Opcode.moveFrom16 dst, src]
  | moveWideFrom16 dst src => [joinBytes Opcode.moveWideFrom16 dst, src]
  | moveObjectFrom16 dst src => [joinBytes Opcode.moveObjectFrom16 dst, src]
  | const4 dst value => [joinBytes Opcode.const4 (joinNibbles dst value.toUInt8)]
  | const16 dst value => [joinBytes Opcode.const16 dst, value.toUInt16]
  | const32 dst value =>
    [joinBytes Opcode.const32 dst, lowUnit value.toUInt32, highUnit value.toUInt32]
  | constString dst string => [joinBytes Opcode.constString dst, string]
  | constStringJumbo dst string =>
    [joinBytes Opcode.constStringJumbo dst, lowUnit string, highUnit string]
  | checkCast reg type => [joinBytes Opcode.checkCast reg, type]
  | newArray dst size type => [joinBytes Opcode.newArray (joinNibbles dst size), type]
  | agetObject dst array index => [joinBytes Opcode.agetObject dst, joinBytes array index]
  | aputObject src array index => [joinBytes Opcode.aputObject src, joinBytes array index]
  | igetObject dst object field => [joinBytes Opcode.igetObject (joinNibbles dst object), field]
  | iputObject src object field => [joinBytes Opcode.iputObject (joinNibbles src object), field]
  | sgetObject dst field => [joinBytes Opcode.sgetObject dst, field]
  | invoke kind method args => encodeInvoke kind method args
  | invokeRange kind method first count =>
    [joinBytes (Opcode.invokeRange kind) count, method, first]

def argumentNibbles (fifth : UInt8) (unit : UInt16) : List UInt8 :=
  [lowNibble (lowByte unit), highNibble (lowByte unit), lowNibble (highByte unit),
   highNibble (highByte unit), fifth]

def decodeShort? (opcode aa : UInt8) : Option Instruction :=
  if opcode = Opcode.returnVoid then some returnVoid
  else if opcode = Opcode.returnValue then some (returnValue aa)
  else if opcode = Opcode.returnWide then some (returnWide aa)
  else if opcode = Opcode.returnObject then some (returnObject aa)
  else if opcode = Opcode.moveResult then some (moveResult aa)
  else if opcode = Opcode.moveResultWide then some (moveResultWide aa)
  else if opcode = Opcode.moveResultObject then some (moveResultObject aa)
  else if opcode = Opcode.const4 then some (const4 (lowNibble aa) (signedNibble aa))
  else none

def decodeMiddle? (opcode aa : UInt8) (w : UInt16) : Option Instruction :=
  if opcode = Opcode.moveFrom16 then some (moveFrom16 aa w)
  else if opcode = Opcode.moveWideFrom16 then some (moveWideFrom16 aa w)
  else if opcode = Opcode.moveObjectFrom16 then some (moveObjectFrom16 aa w)
  else if opcode = Opcode.const16 then some (const16 aa w.toInt16)
  else if opcode = Opcode.constString then some (constString aa w)
  else if opcode = Opcode.checkCast then some (checkCast aa w)
  else if opcode = Opcode.newArray then some (newArray (lowNibble aa) (highNibble aa) w)
  else if opcode = Opcode.agetObject then some (agetObject aa (lowByte w) (highByte w))
  else if opcode = Opcode.aputObject then some (aputObject aa (lowByte w) (highByte w))
  else if opcode = Opcode.igetObject then some (igetObject (lowNibble aa) (highNibble aa) w)
  else if opcode = Opcode.iputObject then some (iputObject (lowNibble aa) (highNibble aa) w)
  else if opcode = Opcode.sgetObject then some (sgetObject aa w)
  else none

def decodeLong? (opcode aa : UInt8) (w x : UInt16) : Option Instruction :=
  if opcode = Opcode.const32 then some (const32 aa (joinUnits w x).toInt32)
  else if opcode = Opcode.constStringJumbo then some (constStringJumbo aa (joinUnits w x))
  else match Opcode.invokeKind? opcode with
    | some kind =>
      let count := (highNibble aa).toNat
      if count ≤ 5 then some (invoke kind w ((argumentNibbles (lowNibble aa) x).take count))
      else none
    | none => (Opcode.invokeRangeKind? opcode).map fun kind => invokeRange kind w x aa

/-- Decodes the instruction that `units` start with. The number of units that it needs depends on
the opcode; `none` when they are not there or no instruction has the opcode. -/
def decode? (units : List UInt16) : Option Instruction :=
  match units with
  | [] => none
  | first :: rest =>
    let opcode := lowByte first
    let aa := highByte first
    (decodeShort? opcode aa).or <|
      match rest with
      | [] => none
      | w :: tail =>
        (decodeMiddle? opcode aa w).or <|
          match tail with
          | [] => none
          | x :: _ => decodeLong? opcode aa w x

end Instruction

end DexForge
