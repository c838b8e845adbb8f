/-! # Little-endian words and alignment -/
set_option autoImplicit false

namespace DexForge

abbrev Bytes := Array UInt8

namespace LittleEndian

def ofUInt16 (w : UInt16) : List UInt8 :=
  [UInt8.ofNat (w.toNat % 0x100), UInt8.ofNat (w.toNat / 0x100)]

def ofUInt32 (w : UInt32) : List UInt8 :=
  [UInt8.ofNat (w.toNat % 0x100), UInt8.ofNat (w.toNat / 0x100 % 0x100),
   UInt8.ofNat (w.toNat / 0x10000 % 0x100), UInt8.ofNat (w.toNat / 0x1000000)]

def uint16At? (bytes : Bytes) (i : Nat) : Option UInt16 :=
  match bytes[i]?, bytes[i + 1]? with
  | some a, some b => some (UInt16.ofNat (a.toNat + b.toNat * 0x100))
  | _, _ => none

def uint32At? (bytes : Bytes) (i : Nat) : Option UInt32 :=
  match bytes[i]?, bytes[i + 1]?, bytes[i + 2]?, bytes[i + 3]? with
  | some a, some b, some c, some d =>
    some (UInt32.ofNat (a.toNat + b.toNat * 0x100 + c.toNat * 0x10000 + d.toNat * 0x1000000))
  | _, _, _, _ => none

end LittleEndian

/-- The next multiple of `align`, a power of two, in 64-bit arithmetic. -/
def alignUp (value align : UInt64) : UInt64 := (value + align - 1) &&& ~~~(align - 1)

def alignWord (n : Nat) : Nat := (n + 3) / 4 * 4

end DexForge
