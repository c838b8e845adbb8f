import DexForge.Container.Header
import DexForge.Container.TableName
import DexForge.Text.Digits

/-! # What can be wrong with a container -/
set_option autoImplicit false

namespace DexForge

inductive ItemName where
  | stringId | typeId | protoId | fieldId | methodId | classDef | typeList | codeItem | mapList
  | mapItem
deriving DecidableEq, Repr

def ItemName.text : ItemName → String
  | stringId => "string_id_item"
  | typeId => "type_id_item"
  | protoId => "proto_id_item"
  | fieldId => "field_id_item"
  | methodId => "method_id_item"
  | classDef => "class_def_item"
  | typeList => "type_list"
  | codeItem => "code_item"
  | mapList => "map_list"
  | mapItem => "map_item"

/-- `arithmeticOverflow` tells of a register number with more bits than its type, where the program
stops. -/
inductive ContainerError where
  | invalidMagic
  | unsupportedVersion (version : Nat)
  | fileTooSmall (size : Nat)
  | sizeMismatch (header : UInt32) (actual : Nat)
  | badEndian (tag : UInt32)
  | checksumMismatch (header actual : UInt32)
  | signatureMismatch
  | outOfBounds (item : ItemName) (offset : Nat)
  | indexOutOfBounds (table : TableName) (index : UInt32) (count : Nat)
  | malformedLeb128 (offset : Nat)
  | malformedString (offset : Nat)
  | unknownMapItem (code : UInt16)
  | badInstruction (codeOffset : UInt32) (pc : Nat) (unit : UInt16)
  | badRegister (codeOffset : UInt32) (register registers : UInt16)
  | duplicateInterface (owner interface : String)
  | unsorted (table : TableName) (position : Nat)
  | arithmeticOverflow
deriving DecidableEq, Repr

def ContainerError.message : ContainerError → String
  | invalidMagic => "invalid magic: expected `dex\\n035\\0`"
  | unsupportedVersion version =>
    "unsupported version: " ++ Digits.decimal 3 version ++ " (expected " ++
      Digits.decimal 3 Header.supportedVersion ++ ")"
  | fileTooSmall size => s!"file too small: {size} bytes (minimum {headerSize})"
  | sizeMismatch header actual => s!"size mismatch: header says {header} bytes, got {actual}"
  | badEndian tag => "unsupported endian tag " ++ Digits.hexLiteral 8 tag.toNat
  | checksumMismatch header actual =>
    "checksum mismatch: header says " ++ Digits.hexLiteral 8 header.toNat ++ ", computed " ++
      Digits.hexLiteral 8 actual.toNat
  | signatureMismatch => "signature mismatch"
  | outOfBounds item offset =>
    item.text ++ " at offset " ++ Digits.hexLiteral 1 offset ++ " extends past the end of the file"
  | indexOutOfBounds table index count =>
    table.text ++ s!" index {index} out of bounds (count {count})"
  | malformedLeb128 offset => "malformed LEB128 at offset " ++ Digits.hexLiteral 1 offset
  | malformedString offset => "malformed string data at offset " ++ Digits.hexLiteral 1 offset
  | unknownMapItem code => "unknown map item type " ++ Digits.hexLiteral 4 code.toNat
  | badInstruction codeOffset pc unit =>
    "undecodable instruction " ++ Digits.hexLiteral 4 unit.toNat ++ " at code item " ++
      Digits.hexLiteral 1 codeOffset.toNat ++ s!", pc {pc}"
  | badRegister codeOffset register registers =>
    s!"register v{register} out of range in code item " ++
      Digits.hexLiteral 1 codeOffset.toNat ++ s!" ({registers} registers)"
  | duplicateInterface owner interface =>
    s!"class `{owner}` lists interface `{interface}` more than once"
  | unsorted table position =>
    table.sectionName ++ s!" not sorted or not unique at entry {position}"
  | arithmeticOverflow => "arithmetic overflow"

end DexForge
