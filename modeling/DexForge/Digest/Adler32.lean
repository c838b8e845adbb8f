/-! # Adler-32 -/
set_option autoImplicit false

namespace DexForge.Adler32

def modulus : Nat := 65521

/-- The running byte sum and the sum of all running sums. -/
structure Sums where
  low : Nat
  high : Nat

def Sums.step (s : Sums) (byte : UInt8) : Sums :=
  let low := (s.low + byte.toNat) % modulus
  ⟨low, (s.high + low) % modulus⟩

def sums (data : List UInt8) : Sums := data.foldl Sums.step ⟨1, 0⟩

def digest (data : List UInt8) : UInt32 :=
  let s := sums data
  UInt32.ofNat (s.high * 0x10000 + s.low)

end DexForge.Adler32
