/-! # Digits: numbers as padded text -/
set_option autoImplicit false

namespace DexForge.Digits

def padLeft (width : Nat) (text : List Char) : List Char :=
  List.replicate (width - text.length) '0' ++ text

def decimal (width n : Nat) : String :=
  String.ofList (padLeft width (Nat.toDigits 10 n))

def hex (width n : Nat) : String :=
  String.ofList (padLeft width (Nat.toDigits 16 n))

def hexLiteral (width n : Nat) : String :=
  "0x" ++ hex width n

def ofBytes (bytes : List UInt8) : String :=
  String.join (bytes.map fun byte => hex 2 byte.toNat)

end DexForge.Digits
