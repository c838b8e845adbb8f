import DexForge.Bytes.LittleEndian

/-! # The map list

The map list names every section of a file with its number of items and its first offset.
-/
set_option autoImplicit false

namespace DexForge

inductive ItemKind where
  | header
  | stringId
  | typeId
  | protoId
  | fieldId
  | methodId
  | classDef
  | mapList
  | typeList
  | classData
  | codeItem
  | stringData
deriving DecidableEq, Repr

namespace ItemKind

def code : ItemKind → UInt16
  | header => 0x0000
  | stringId => 0x0001
  | typeId => 0x0002
  | protoId => 0x0003
  | fieldId => 0x0004
  | methodId => 0x0005
  | classDef => 0x0006
  | mapList => 0x1000
  | typeList => 0x1001
  | classData => 0x2000
  | codeItem => 0x2001
  | stringData => 0x2002

def all : List ItemKind :=
  [header, stringId, typeId, protoId, fieldId, methodId, classDef, mapList, typeList, classData,
   codeItem, stringData]

def ofCode? (n : UInt16) : Option ItemKind := all.find? fun kind => kind.code == n

theorem ofCode?_code (kind : ItemKind) : ofCode? kind.code = some kind := by
  cases kind <;> rfl

def name : ItemKind → String
  | header => "header_item"
  | stringId => "string_id_item"
  | typeId => "type_id_item"
  | protoId => "proto_id_item"
  | fieldId => "field_id_item"
  | methodId => "method_id_item"
  | classDef => "class_def_item"
  | mapList => "map_list"
  | typeList => "type_list"
  | classData => "class_data_item"
  | codeItem => "code_item"
  | stringData => "string_data_item"

end ItemKind

structure MapItem where
  kind : ItemKind
  size : UInt32
  offset : UInt32
deriving DecidableEq

namespace MapItem

def byteSize : Nat := 12

def encode (item : MapItem) : List UInt8 :=
  LittleEndian.ofUInt16 item.kind.code ++ [0, 0] ++ LittleEndian.ofUInt32 item.size ++
    LittleEndian.ofUInt32 item.offset

end MapItem

end DexForge
