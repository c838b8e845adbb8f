import DexForge.Bytes.Mutf8
import DexForge.Bytes.Uleb128
import DexForge.Container.Basic

/-! # The bytes of items -/
set_option autoImplicit false

namespace DexForge

open LittleEndian

def ProtoId.encode (p : ProtoId) : List UInt8 :=
  ofUInt32 p.shorty ++ ofUInt32 p.returns ++ ofUInt32 p.paramsOffset

def MemberId.encode (m : MemberId) : List UInt8 :=
  ofUInt16 m.owner ++ ofUInt16 m.descriptor ++ ofUInt32 m.name

def ClassDef.encode (d : ClassDef) : List UInt8 := d.words.flatMap ofUInt32

def CodeItem.encode (c : CodeItem) : List UInt8 :=
  ofUInt16 c.registers ++ ofUInt16 c.ins ++ ofUInt16 c.outs ++ ofUInt16 c.tries ++
    ofUInt32 c.debugInfo ++ ofUInt32 (UInt32.ofNat c.units.length) ++ c.units.flatMap ofUInt16

def encodeTypeList (types : List UInt16) : List UInt8 :=
  ofUInt32 (UInt32.ofNat types.length) ++ types.flatMap ofUInt16

/-- A text: its length in UTF-16 units, its bytes and a zero byte. -/
def encodeText (text : String) : List UInt8 :=
  Uleb128.encode (UInt32.ofNat (Utf16.length text)) ++ Mutf8.encode text ++ [0]

def encodeMap (items : List MapItem) : List UInt8 :=
  ofUInt32 (UInt32.ofNat items.length) ++ items.flatMap MapItem.encode

namespace ClassData

/-- Members are stored with the distance of their index from that of the member in front, the first
with its index. -/
def encodeField (previous : UInt32) (f : FieldEntry) : List UInt8 :=
  Uleb128.encode (f.field - previous) ++ Uleb128.encode f.access.bits

def encodeMethod (previous : UInt32) (m : MethodEntry) : List UInt8 :=
  Uleb128.encode (m.method - previous) ++ Uleb128.encode m.access.bits ++
    Uleb128.encode m.codeOffset

def encodeFields (fields : List FieldEntry) : List UInt8 :=
  ((0 :: fields.map FieldEntry.field).zip fields).flatMap fun (previous, f) =>
    encodeField previous f

def encodeMethods (methods : List MethodEntry) : List UInt8 :=
  ((0 :: methods.map MethodEntry.method).zip methods).flatMap fun (previous, m) =>
    encodeMethod previous m

def encode (d : ClassData) : List UInt8 :=
  [d.staticFields.length, d.instanceFields.length, d.directMethods.length,
   d.virtualMethods.length].flatMap (fun n => Uleb128.encode (UInt32.ofNat n)) ++
    encodeFields d.staticFields ++ encodeFields d.instanceFields ++
    encodeMethods d.directMethods ++ encodeMethods d.virtualMethods

end ClassData

end DexForge
