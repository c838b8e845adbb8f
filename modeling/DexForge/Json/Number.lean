/-! # JSON numbers

A number is kept as it is written. Whether it can be held by a double is decided in exact
arithmetic.
-/
set_option autoImplicit false

namespace DexForge

structure JsonNumber where
  negative : Bool
  whole : List Char
  fraction : List Char
  exponent : Int
deriving DecidableEq, Repr

namespace JsonNumber

def isWhole : List Char → Bool
  | [] => false
  | '0' :: rest => rest.isEmpty
  | _ => true

def spanDigits (cs : List Char) : List Char × List Char := cs.span Char.isDigit

def digitsValue (digits : List Char) : Nat :=
  digits.foldl (fun n c => n * 10 + (c.toNat - '0'.toNat)) 0

/-- The part of a literal from the `e` on; nothing stands for the power zero. -/
def exponent? : List Char → Option Int
  | [] => some 0
  | e :: rest =>
    let (negative, digits) := match rest with
      | '-' :: digits => (true, digits)
      | '+' :: digits => (false, digits)
      | digits => (false, digits)
    if (e == 'e' || e == 'E') && !digits.isEmpty && digits.all Char.isDigit then
      let n : Int := digitsValue digits
      some (if negative then -n else n)
    else none

def ofLiteral? (literal : List Char) : Option JsonNumber :=
  let (negative, unsigned) := match literal with
    | '-' :: rest => (true, rest)
    | _ => (false, literal)
  let (whole, rest) := spanDigits unsigned
  if !isWhole whole then none
  else match rest with
    | '.' :: rest =>
      let (fraction, rest) := spanDigits rest
      if fraction.isEmpty then none else (exponent? rest).map (⟨negative, whole, fraction, ·⟩)
    | _ => (exponent? rest).map (⟨negative, whole, [], ·⟩)

/-- The nearest number with 53 significant bits; of two, the one with the even last bit. -/
def round53 (n : Nat) : Nat :=
  let unit := Nat.pow 2 (n.log2 - 52)
  let q := n / unit
  let r := n % unit
  (if unit < 2 * r ∨ (2 * r = unit ∧ q % 2 = 1) then q + 1 else q) * unit

/-- A significand of 64 bits, the power of ten that it counts, and whether it still takes digits. -/
structure Scaled where
  significand : Nat
  power : Int
  isOpen : Bool

/-- Digits of the whole part that find no room scale the number. -/
def Scaled.addWhole (s : Scaled) (c : Char) : Scaled :=
  let next := s.significand * 10 + (c.toNat - '0'.toNat)
  if s.isOpen ∧ next < UInt64.size then { s with significand := next }
  else { s with power := s.power + 1, isOpen := false }

/-- Digits behind the point that find no room are dropped. -/
def Scaled.addFraction (s : Scaled) (c : Char) : Scaled :=
  let next := s.significand * 10 + (c.toNat - '0'.toNat)
  if s.isOpen ∧ next < UInt64.size then { s with significand := next, power := s.power - 1 }
  else { s with isOpen := false }

def scaled (n : JsonNumber) : Scaled :=
  let whole := n.whole.foldl Scaled.addWhole ⟨0, 0, true⟩
  let all := n.fraction.foldl Scaled.addFraction { whole with isOpen := true }
  { all with power := all.power + n.exponent }

/-- The significand and the power of ten, each rounded to a double, must have a finite product:
one below the middle between the largest double and the next power of two. -/
def isFinite (n : JsonNumber) : Bool :=
  let s := n.scaled
  s.significand == 0 || decide (s.power < 0) ||
    (decide (s.power ≤ 308) &&
      decide (round53 s.significand * round53 (Nat.pow 10 s.power.toNat) <
        Nat.pow 2 1024 - Nat.pow 2 970))

end JsonNumber

end DexForge
