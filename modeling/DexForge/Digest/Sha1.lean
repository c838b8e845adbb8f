/-! # SHA-1 -/
set_option autoImplicit false

namespace DexForge.Sha1

structure State where
  a : UInt32
  b : UInt32
  c : UInt32
  d : UInt32
  e : UInt32

def State.initial : State := ⟨0x67452301, 0xefcdab89, 0x98badcfe, 0x10325476, 0xc3d2e1f0⟩

def rotate (w : UInt32) (n : UInt32) : UInt32 := (w <<< n) ||| (w >>> (32 - n))

/-- The message, a one bit, zeros, and the bit length in the last eight bytes. -/
def pad (data : List UInt8) : List UInt8 :=
  let marker : List UInt8 := 0x80 :: List.replicate ((119 - data.length % 64) % 64) 0
  let bits := data.length * 8
  let shifts := [56, 48, 40, 32, 24, 16, 8, 0]
  data ++ marker ++ shifts.map fun shift => UInt8.ofNat (bits >>> shift)

/-- Big-endian words of the message; bytes of an incomplete last word are dropped. -/
def words : List UInt8 → Array UInt32 → Array UInt32
  | a :: b :: c :: d :: rest, read =>
    words rest (read.push
      (a.toUInt32 <<< 24 ||| b.toUInt32 <<< 16 ||| c.toUInt32 <<< 8 ||| d.toUInt32))
  | _, read => read

def schedule (block : Array UInt32) : Nat → Array UInt32
  | 0 => block
  | n + 1 =>
    let w := schedule block n
    let t := w.size
    let word (back : Nat) : UInt32 := w.getD (t - back) 0
    w.push (rotate (word 3 ^^^ word 8 ^^^ word 14 ^^^ word 16) 1)

def mix (t : Nat) (b c d : UInt32) : UInt32 :=
  if t < 20 then ((b &&& c) ||| (~~~b &&& d)) + 0x5a827999
  else if t < 40 then (b ^^^ c ^^^ d) + 0x6ed9eba1
  else if t < 60 then ((b &&& c) ||| (b &&& d) ||| (c &&& d)) + 0x8f1bbcdc
  else (b ^^^ c ^^^ d) + 0xca62c1d6

def State.round (w : Array UInt32) (s : State) (t : Nat) : State :=
  let next := rotate s.a 5 + mix t s.b s.c s.d + s.e + w.getD t 0
  ⟨next, s.a, rotate s.b 30, s.c, s.d⟩

def rounds (w : Array UInt32) : (left : Nat) → State → State
  | 0, s => s
  | left + 1, s => rounds w left (s.round w (79 - left))

def State.absorb (s : State) (block : Array UInt32) : State :=
  let r := rounds (schedule block 64) 80 s
  ⟨s.a + r.a, s.b + r.b, s.c + r.c, s.d + r.d, s.e + r.e⟩

def absorbAll (message : Array UInt32) : (blocks : Nat) → (start : Nat) → State → State
  | 0, _, s => s
  | blocks + 1, start, s =>
    absorbAll message blocks (start + 16) (s.absorb (message.extract start (start + 16)))

def State.bytes (s : State) : Vector UInt8 20 :=
  let word := #v[s.a, s.b, s.c, s.d, s.e]
  Vector.ofFn fun i => (word[i.val / 4] >>> UInt32.ofNat (24 - i.val % 4 * 8)).toUInt8

def digest (data : List UInt8) : Vector UInt8 20 :=
  let message := words (pad data) #[]
  (absorbAll message (message.size / 16) 0 .initial).bytes

end DexForge.Sha1
