import DexForge.Container.Seal

/-! # The file header

Identity, integrity fields and twenty words, 112 bytes in all.
-/
set_option autoImplicit false

namespace DexForge

structure Section where
  size : UInt32
  offset : UInt32
deriving DecidableEq

namespace Section

def empty : Section := ⟨0, 0⟩

def words (s : Section) : List UInt32 := [s.size, s.offset]

end Section

structure Header where
  magic : Vector UInt8 8
  checksum : UInt32
  signature : Vector UInt8 20
  fileSize : UInt32
  headerSize : UInt32
  endianTag : UInt32
  link : Section
  mapOffset : UInt32
  stringIds : Section
  typeIds : Section
  protoIds : Section
  fieldIds : Section
  methodIds : Section
  classDefs : Section
  data : Section
deriving DecidableEq

namespace Header

/-- The marker of version 035: `dex`, a line feed, three digits and a zero byte. -/
def magic035 : Vector UInt8 8 := #v[0x64, 0x65, 0x78, 0x0a, 0x30, 0x33, 0x35, 0]

def supportedVersion : Nat := 35

def littleEndian : UInt32 := 0x12345678

def blank : Header where
  magic := magic035
  checksum := 0
  signature := Vector.replicate 20 0
  fileSize := 0
  headerSize := UInt32.ofNat DexForge.headerSize
  endianTag := littleEndian
  link := .empty
  mapOffset := 0
  stringIds := .empty
  typeIds := .empty
  protoIds := .empty
  fieldIds := .empty
  methodIds := .empty
  classDefs := .empty
  data := .empty

def words (h : Header) : List UInt32 :=
  [h.fileSize, h.headerSize, h.endianTag] ++ h.link.words ++ [h.mapOffset] ++ h.stringIds.words ++
    h.typeIds.words ++ h.protoIds.words ++ h.fieldIds.words ++ h.methodIds.words ++
    h.classDefs.words ++ h.data.words

def encode (h : Header) : List UInt8 :=
  h.magic.toList ++ LittleEndian.ofUInt32 h.checksum ++ h.signature.toList ++
    h.words.flatMap LittleEndian.ofUInt32

/-- Reads a header whose 112 bytes are present; `decode?` checks that they are. -/
def decode (bytes : Bytes) : Header :=
  let byte (i : Nat) : UInt8 := bytes.getD i 0
  let word (i : Nat) : UInt32 := (LittleEndian.uint32At? bytes i).getD 0
  let pair (i : Nat) : Section := ⟨word i, word (i + 4)⟩
  { magic := Vector.ofFn fun i => byte i
    checksum := word 8
    signature := Vector.ofFn fun i => byte (12 + i)
    fileSize := word 32
    headerSize := word 36
    endianTag := word 40
    link := pair 44
    mapOffset := word 52
    stringIds := pair 56
    typeIds := pair 64
    protoIds := pair 72
    fieldIds := pair 80
    methodIds := pair 88
    classDefs := pair 96
    data := pair 104 }

def decode? (bytes : Bytes) : Option Header :=
  if DexForge.headerSize ≤ bytes.size then some (decode bytes) else none

def hasMagic (h : Header) : Bool :=
  h.magic[0] == 0x64 && h.magic[1] == 0x65 && h.magic[2] == 0x78 && h.magic[3] == 0x0a &&
    h.magic[7] == 0

def version? (h : Header) : Option Nat :=
  let digits := [h.magic[4], h.magic[5], h.magic[6]]
  if digits.all fun d => 0x30 ≤ d && d ≤ 0x39 then
    some (digits.foldl (fun n d => n * 10 + (d.toNat - 0x30)) 0)
  else none

def isLittleEndian (h : Header) : Bool := h.endianTag == littleEndian

end Header

end DexForge
