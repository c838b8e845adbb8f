/-! # Unsigned LEB128

Groups of seven bits, the lowest first; the high bit of a byte tells that another follows.
-/
set_option autoImplicit false

namespace DexForge.Uleb128

def encodeNat (n : Nat) : List UInt8 :=
  if n < 0x80 then [UInt8.ofNat n]
  else UInt8.ofNat (n % 0x80 + 0x80) :: encodeNat (n / 0x80)
termination_by n

def encode (value : UInt32) : List UInt8 := encodeNat value.toNat

def length (value : UInt32) : Nat :=
  let n := value.toNat
  if n < 0x80 then 1
  else if n < 0x4000 then 2
  else if n < 0x200000 then 3
  else if n < 0x10000000 then 4
  else 5

/-- Reads at most `left` more bytes. The value so far is `sum` and the next group counts `weight`.
The position behind the last byte looked at is given also when the group is refused. -/
def decodeFrom (bytes : Array UInt8) : (left weight sum i : Nat) → Option UInt32 × Nat
  | 0, _, _, i => (none, i)
  | left + 1, weight, sum, i =>
    match bytes[i]? with
    | none => (none, i)
    | some b =>
      let payload := b.toNat % 0x80
      if left = 0 ∧ 0x0f < payload then (none, i + 1)
      else if b.toNat < 0x80 then (some (UInt32.ofNat (sum + payload * weight)), i + 1)
      else decodeFrom bytes left (weight * 0x80) (sum + payload * weight) (i + 1)

def decodeAt (bytes : Array UInt8) (i : Nat) : Option UInt32 × Nat :=
  decodeFrom bytes 5 1 0 i

end DexForge.Uleb128
