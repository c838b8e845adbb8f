/-! # CRC-32 with the reflected polynomial `0xedb88320` -/
set_option autoImplicit false

namespace DexForge.Crc32

def bitStep (crc : UInt32) : UInt32 :=
  if crc &&& 1 == 0 then crc >>> 1 else (crc >>> 1) ^^^ 0xedb88320

def byteStep (crc : UInt32) (byte : UInt8) : UInt32 :=
  let mixed := crc ^^^ byte.toUInt32
  bitStep (bitStep (bitStep (bitStep (bitStep (bitStep (bitStep (bitStep mixed)))))))

def digest (data : List UInt8) : UInt32 :=
  data.foldl byteStep 0xffffffff ^^^ 0xffffffff

end DexForge.Crc32
