import DexForge.Json.Value
import DexForge.Text.Utf16

/-! # JSON tokens -/
set_option autoImplicit false

namespace DexForge

/-- A text is `none` when a surrogate in it is unpaired. -/
inductive JsonToken where
  | openArray | closeArray | openObject | closeObject | colon | comma
  | text (content : Option String)
  | scalar (value : JsonValue)

namespace JsonToken

inductive Piece where
  | char (c : Char)
  | unit (u : UInt16)

/-- Puts the units of a text together, the characters so far in reverse order. A high surrogate has
to be followed by a low one, both as escapes. -/
def joinPieces : (read : List Char) → List Piece → Option String
  | read, [] => some (String.ofList read.reverse)
  | read, .char c :: rest => joinPieces (c :: read) rest
  | read, .unit u :: rest =>
    if Utf16.isHigh u then
      match rest with
      | .unit v :: tail =>
        if Utf16.isLow v then joinPieces (Utf16.combine u v :: read) tail else none
      | _ => none
    else if Utf16.isLow u then none
    else joinPieces (Char.ofNat u.toNat :: read) rest

def hexDigit? (c : Char) : Option Nat :=
  if c.isDigit then some (c.toNat - '0'.toNat)
  else if 'a' ≤ c ∧ c ≤ 'f' then some (c.toNat - 'a'.toNat + 10)
  else if 'A' ≤ c ∧ c ≤ 'F' then some (c.toNat - 'A'.toNat + 10)
  else none

def hexUnit? (a b c d : Char) : Option UInt16 := do
  return UInt16.ofNat
    (((← hexDigit? a) * 16 + (← hexDigit? b)) * 256 + (← hexDigit? c) * 16 + (← hexDigit? d))

def escaped? : Char → Option Char
  | '"' => some '"'
  | '\\' => some '\\'
  | '/' => some '/'
  | 'b' => some '\x08'
  | 'f' => some '\x0c'
  | 'n' => some '\n'
  | 'r' => some '\r'
  | 't' => some '\t'
  | _ => none

def scanText : List Char → Array Piece → Option (Array Piece × List Char)
  | '"' :: rest, read => some (read, rest)
  | '\\' :: 'u' :: a :: b :: c :: d :: rest, read =>
    match hexUnit? a b c d with
    | some u => scanText rest (read.push (.unit u))
    | none => none
  | '\\' :: letter :: rest, read =>
    match escaped? letter with
    | some c => scanText rest (read.push (.char c))
    | none => none
  | c :: rest, read => if c < ' ' then none else scanText rest (read.push (.char c))
  | [], _ => none

theorem length_lt_of_scanText {cs rest : List Char} {read pieces : Array Piece}
    (h : scanText cs read = some (pieces, rest)) : rest.length < cs.length := by
  fun_induction scanText cs read with
  | case1 => simp_all
  | case2 _ _ _ _ _ _ _ _ ih => have := ih h; simp only [List.length_cons]; omega
  | case3 => simp at h
  | case4 _ _ _ _ _ _ ih => have := ih h; simp only [List.length_cons]; omega
  | case5 => simp at h
  | case6 => simp at h
  | case7 _ _ _ _ _ _ _ ih => have := ih h; simp only [List.length_cons]; omega
  | case8 => simp at h

def isNumberChar (c : Char) : Bool :=
  c.isDigit || c == '-' || c == '+' || c == '.' || c == 'e' || c == 'E'

def isSpace (c : Char) : Bool := c == ' ' || c == '\t' || c == '\n' || c == '\r'

def punctuation? : Char → Option JsonToken
  | '[' => some openArray
  | ']' => some closeArray
  | '\x7b' => some openObject
  | '\x7d' => some closeObject
  | ':' => some colon
  | ',' => some comma
  | _ => none

def scanScalar (c : Char) (rest : List Char) : Option (JsonValue × List Char) :=
  match c, rest with
  | 'n', 'u' :: 'l' :: 'l' :: tail => some (.null, tail)
  | 't', 'r' :: 'u' :: 'e' :: tail => some (.bool true, tail)
  | 'f', 'a' :: 'l' :: 's' :: 'e' :: tail => some (.bool false, tail)
  | _, _ =>
    let literal := rest.takeWhile isNumberChar
    match JsonNumber.ofLiteral? (c :: literal) with
    | some n => some (if n.isFinite then .number n else .malformed, rest.drop literal.length)
    | none => none

theorem length_le_of_scanScalar {c : Char} {rest tail : List Char} {value : JsonValue}
    (h : scanScalar c rest = some (value, tail)) : tail.length ≤ rest.length := by
  unfold scanScalar at h
  split at h
  · cases h; simp only [List.length_cons]; omega
  · cases h; simp only [List.length_cons]; omega
  · cases h; simp only [List.length_cons]; omega
  · simp only at h
    split at h
    · cases h; simp
    · cases h

def scan (cs : List Char) (read : Array JsonToken) : Option (Array JsonToken) :=
  match cs with
  | [] => some read
  | c :: rest =>
    if isSpace c then scan rest read
    else match punctuation? c with
      | some token => scan rest (read.push token)
      | none =>
        if c == '"' then
          match h : scanText rest #[] with
          | some (pieces, tail) =>
            have := length_lt_of_scanText h
            scan tail (read.push (text (joinPieces [] pieces.toList)))
          | none => none
        else
          match h : scanScalar c rest with
          | some (value, tail) =>
            have := length_le_of_scanScalar h
            scan tail (read.push (scalar value))
          | none => none
termination_by cs.length

def isWellFormed : JsonToken → Bool
  | text none => false
  | scalar .malformed => false
  | _ => true

end JsonToken

end DexForge
