import DexForge.Arithmetic
import DexForge.Text.Utf16

/-! # Modified UTF-8

Each UTF-16 unit takes one to three bytes. The unit zero takes two, so that a zero byte can end a
text.
-/
set_option autoImplicit false

namespace DexForge.Mutf8

def encodeUnit (u : UInt16) : List UInt8 :=
  let n := u.toNat
  if 0 < n ∧ n < 0x80 then [UInt8.ofNat n]
  else if n < 0x800 then [UInt8.ofNat (0xc0 + n / 0x40), UInt8.ofNat (0x80 + n % 0x40)]
  else [UInt8.ofNat (0xe0 + n / 0x1000), UInt8.ofNat (0x80 + n / 0x40 % 0x40),
    UInt8.ofNat (0x80 + n % 0x40)]

/-- The bytes of a text, without the zero byte that ends it. -/
def encode (text : String) : List UInt8 := (Utf16.encode text).flatMap encodeUnit

/-- The bytes of a text with its number of units, which is counted in 32 bits. -/
def encodeCounted? (text : String) : Option (List UInt8 × UInt32) := do
  return (encode text, ← Arithmetic.checked.sum32 ((Utf16.encode text).map fun _ => 1))

def continuation? (bytes : Array UInt8) (i : Nat) : Option Nat :=
  match bytes[i]? with
  | some b => if b.toNat / 0x40 = 2 then some (b.toNat % 0x40) else none
  | none => none

/-- Reads units from position `i` up to the first zero byte and gives them with the position behind
it. Units in a longer form than `encode` writes are accepted. -/
def decodeUnits (bytes : Array UInt8) (i : Nat) (read : Array UInt16) :
    Option (Array UInt16 × Nat) :=
  if h : i < bytes.size then
    let lead := bytes[i].toNat
    if lead = 0 then some (read, i + 1)
    else if lead < 0x80 then decodeUnits bytes (i + 1) (read.push (UInt16.ofNat lead))
    else if lead / 0x20 = 6 then
      match continuation? bytes (i + 1) with
      | some x => decodeUnits bytes (i + 2) (read.push (UInt16.ofNat (lead % 0x20 * 0x40 + x)))
      | none => none
    else if lead / 0x10 = 14 then
      match continuation? bytes (i + 1), continuation? bytes (i + 2) with
      | some x, some y =>
        decodeUnits bytes (i + 3)
          (read.push (UInt16.ofNat (lead % 0x10 * 0x1000 + x * 0x40 + y)))
      | _, _ => none
    else none
  else none
termination_by bytes.size - i

def decodeAt (bytes : Array UInt8) (i : Nat) : Option (String × Nat) :=
  match decodeUnits bytes i #[] with
  | some (units, stop) => (Utf16.decode? units.toList).map fun text => (text, stop)
  | none => none

end DexForge.Mutf8
