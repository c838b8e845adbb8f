import DexForge.Bytes.LittleEndian
import DexForge.Digest.Adler32
import DexForge.Digest.Sha1

/-! # Integrity fields of a container

The signature covers the bytes from 32 on. The checksum covers the bytes from 12 on, and with them
the signature, so the signature is stored first.
-/
set_option autoImplicit false

namespace DexForge

def Bytes.overwrite (bytes : Bytes) (i : Nat) (patch : List UInt8) : Bytes :=
  (bytes.toList.take i ++ patch ++ bytes.toList.drop (i + patch.length)).toArray

def headerSize : Nat := 112

namespace Seal

def checksumStart : Nat := 12

def signatureStart : Nat := 32

def checksum (bytes : Bytes) : UInt32 := Adler32.digest (bytes.toList.drop checksumStart)

def signature (bytes : Bytes) : Vector UInt8 20 := Sha1.digest (bytes.toList.drop signatureStart)

/-- Stores the signature and then the checksum. -/
def stamp (bytes : Bytes) : Bytes :=
  let signed := bytes.overwrite 12 (signature bytes).toList
  signed.overwrite 8 (LittleEndian.ofUInt32 (checksum signed))

/-- A checksum needs the bytes in front of its range. -/
def checksum? (bytes : Bytes) : Option UInt32 :=
  if checksumStart ≤ bytes.size then some (checksum bytes) else none

def signature? (bytes : Bytes) : Option (Vector UInt8 20) :=
  if signatureStart ≤ bytes.size then some (signature bytes) else none

def stamp? (bytes : Bytes) : Option Bytes :=
  if headerSize ≤ bytes.size then some (stamp bytes) else none

end Seal

end DexForge
