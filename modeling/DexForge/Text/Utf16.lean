/-! # UTF-16 code units

The string pool counts and orders texts by their UTF-16 code units.
-/
set_option autoImplicit false

namespace DexForge.Utf16

/-- One unit for a character of the basic plane, a surrogate pair for any other. -/
def ofChar (c : Char) : List UInt16 :=
  let n := c.toNat
  if n < 0x10000 then [UInt16.ofNat n]
  else
    [UInt16.ofNat (0xd800 + (n - 0x10000) / 0x400), UInt16.ofNat (0xdc00 + (n - 0x10000) % 0x400)]

def encode (text : String) : List UInt16 := text.toList.flatMap ofChar

/-- Number of units, without building them. -/
def length (text : String) : Nat :=
  text.toList.foldl (fun n c => n + if c.toNat < 0x10000 then 1 else 2) 0

def isHigh (u : UInt16) : Bool := 0xd800 ≤ u && u < 0xdc00

def isLow (u : UInt16) : Bool := 0xdc00 ≤ u && u < 0xe000

def combine (high low : UInt16) : Char :=
  Char.ofNat (0x10000 + (high.toNat - 0xd800) * 0x400 + (low.toNat - 0xdc00))

/-- Reads units back, the characters read so far in reverse order; a surrogate that stands alone is
refused. -/
def decodeFrom : List Char → List UInt16 → Option (List Char)
  | read, [] => some read.reverse
  | read, u :: rest =>
    if isHigh u then
      match rest with
      | v :: tail => if isLow v then decodeFrom (combine u v :: read) tail else none
      | [] => none
    else if isLow u then none
    else decodeFrom (Char.ofNat u.toNat :: read) rest

def decode? (units : List UInt16) : Option String :=
  (decodeFrom [] units).map String.ofList

/-- The order of the string pool. -/
def order (a b : String) : Ordering := compare (encode a) (encode b)

end DexForge.Utf16
