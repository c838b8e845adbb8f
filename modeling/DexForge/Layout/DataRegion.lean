import DexForge.Bytes.LittleEndian
import DexForge.Synthesis.Error

/-! # The data region

Items behind the id sections are appended one by one; each knows its offset in the file.
-/
set_option autoImplicit false

namespace DexForge

/-- `base` is the offset of the first byte. -/
structure DataRegion where
  base : Nat
  bytes : Bytes

/-- Appends items to a data region, or fails when an offset outgrows its field. -/
abbrev Placing := StateT DataRegion (Except SynthesisError)

namespace DataRegion

def stop (r : DataRegion) : Nat := r.base + r.bytes.size

def append (r : DataRegion) (bytes : List UInt8) : DataRegion := ⟨r.base, r.bytes ++ bytes⟩

def pad (r : DataRegion) : DataRegion := r.append (List.replicate (alignWord r.stop - r.stop) 0)

end DataRegion

namespace Placing

def offset32 (placement : Placement) (offset : Nat) : Except SynthesisError UInt32 :=
  if offset < 0x100000000 then .ok (UInt32.ofNat offset)
  else .error (.layoutOverflow (.offset placement offset))

def align : Placing Unit := modify DataRegion.pad

def here (placement : Placement) : Placing UInt32 := fun region => do
  return (← offset32 placement region.stop, region)

def append (bytes : List UInt8) : Placing Unit := modify fun region => region.append bytes

def item (placement : Placement) (bytes : List UInt8) : Placing UInt32 := do
  let offset ← here placement
  append bytes
  return offset

def alignedItem (placement : Placement) (bytes : List UInt8) : Placing UInt32 := do
  align
  item placement bytes

end Placing

end DexForge
