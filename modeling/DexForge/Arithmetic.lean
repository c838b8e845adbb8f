/-! # Arithmetic on machine words

A sum may need more bits than its type has. A program that checks its sums stops there; one that
does not check them goes on with the lower bits. This program checks.
-/
set_option autoImplicit false

namespace DexForge

inductive Arithmetic where
  | checked
  | wrapping
deriving DecidableEq, Repr

namespace Arithmetic

/-- The lower bits of a sum, `none` where the program stops. -/
def keep {α : Type} (arithmetic : Arithmetic) (fits : Bool) (sum : α) : Option α :=
  if fits || arithmetic == wrapping then some sum else none

def add16 (arithmetic : Arithmetic) (a b : UInt16) : Option UInt16 :=
  arithmetic.keep (a.toNat + b.toNat < UInt16.size) (a + b)

def add32 (arithmetic : Arithmetic) (a b : UInt32) : Option UInt32 :=
  arithmetic.keep (a.toNat + b.toNat < UInt32.size) (a + b)

def sum32 (arithmetic : Arithmetic) (words : List UInt32) : Option UInt32 :=
  words.foldlM arithmetic.add32 0

end Arithmetic

end DexForge
