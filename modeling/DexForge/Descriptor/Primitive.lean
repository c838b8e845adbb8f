/-! # Primitive value types and their wrapper classes -/
set_option autoImplicit false

namespace DexForge

inductive Primitive where
  | boolean | byte | short | char | int | long | float | double
deriving DecidableEq, Hashable, Repr

namespace Primitive

def letter : Primitive → Char
  | boolean => 'Z'
  | byte => 'B'
  | short => 'S'
  | char => 'C'
  | int => 'I'
  | long => 'J'
  | float => 'F'
  | double => 'D'

def ofLetter? : Char → Option Primitive
  | 'Z' => some boolean
  | 'B' => some byte
  | 'S' => some short
  | 'C' => some char
  | 'I' => some int
  | 'J' => some long
  | 'F' => some float
  | 'D' => some double
  | _ => none

def isWide : Primitive → Bool
  | long | double => true
  | _ => false

def keyword : Primitive → String
  | boolean => "boolean"
  | byte => "byte"
  | short => "short"
  | char => "char"
  | int => "int"
  | long => "long"
  | float => "float"
  | double => "double"

/-- Accessor of the wrapper class that gives the boxed value back. -/
def unboxer (p : Primitive) : String :=
  p.keyword ++ "Value"

def boxer : String := "valueOf"

theorem ofLetter?_letter (p : Primitive) : ofLetter? p.letter = some p := by
  cases p <;> rfl

end Primitive

end DexForge
