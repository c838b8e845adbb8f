import DexForge.Bytes.Mutf8
import DexForge.Bytes.Uleb128
import DexForge.Container.Basic

/-! # Loading a container

`Container.load` checks the header and the integrity fields, then reads every table, class data
item and code item. Whatever lies outside the file is refused, and no index is looked up yet.
-/
set_option autoImplicit false

namespace DexForge.Loader

abbrev Load (α : Type) := Except ContainerError α

def within (bytes : Bytes) (item : ItemName) (offset length : Nat) : Load Unit :=
  if offset + length ≤ bytes.size then .ok () else .error (.outOfBounds item offset)

def uint16 (bytes : Bytes) (item : ItemName) (offset : Nat) : Load UInt16 :=
  match LittleEndian.uint16At? bytes offset with
  | some w => .ok w
  | none => .error (.outOfBounds item offset)

def uint32 (bytes : Bytes) (item : ItemName) (offset : Nat) : Load UInt32 :=
  match LittleEndian.uint32At? bytes offset with
  | some w => .ok w
  | none => .error (.outOfBounds item offset)

def uleb (bytes : Bytes) (offset : Nat) : Load (UInt32 × Nat) :=
  match Uleb128.decodeAt bytes offset with
  | (some value, next) => .ok (value, next)
  | (none, _) => .error (.malformedLeb128 offset)

def entries {α : Type} (read : Nat → Load α) (stride : Nat) :
    (count offset : Nat) → Array α → Load (Array α)
  | 0, _, done => .ok done
  | count + 1, offset, done =>
    match read offset with
    | .ok a => entries read stride count (offset + stride) (done.push a)
    | .error e => .error e

def table {α : Type} (s : Section) (stride : Nat) (read : Nat → Load α) : Load (Array α) :=
  entries read stride s.size.toNat s.offset.toNat #[]

/-- A list of type indices; offset zero stands for the empty list. -/
def typeList (bytes : Bytes) (offset : UInt32) : Load (List UInt16) :=
  if offset = 0 then .ok []
  else do
    let start := offset.toNat
    let size ← uint32 bytes .typeList start
    within bytes .typeList (start + 4) (size.toNat * 2)
    let types ← entries (uint16 bytes .typeList) 2 size.toNat (start + 4) #[]
    return types.toList

/-- A text behind its length in UTF-16 units, which has to be the true one. -/
def stringData (bytes : Bytes) (offset : UInt32) : Load String := do
  let (units, start) ← uleb bytes offset.toNat
  match Mutf8.decodeAt bytes start with
  | some (text, _) =>
    if Utf16.length text = units.toNat then .ok text
    else .error (.malformedString offset.toNat)
  | none => .error (.malformedString offset.toNat)

def stringId (bytes : Bytes) (offset : Nat) : Load String := do
  stringData bytes (← uint32 bytes .stringId offset)

def protoId (bytes : Bytes) (offset : Nat) : Load ProtoId := do
  let paramsOffset ← uint32 bytes .protoId (offset + 8)
  let shorty ← uint32 bytes .protoId offset
  let returns ← uint32 bytes .protoId (offset + 4)
  return ⟨shorty, returns, paramsOffset, ← typeList bytes paramsOffset⟩

def memberId (bytes : Bytes) (item : ItemName) (offset : Nat) : Load MemberId := do
  let owner ← uint16 bytes item offset
  let descriptor ← uint16 bytes item (offset + 2)
  return ⟨owner, descriptor, ← uint32 bytes item (offset + 4)⟩

def codeItem (bytes : Bytes) (offset : UInt32) : Load CodeItem := do
  let start := offset.toNat
  let size ← uint32 bytes .codeItem (start + 12)
  within bytes .codeItem (start + 16) (size.toNat * 2)
  let registers ← uint16 bytes .codeItem start
  let ins ← uint16 bytes .codeItem (start + 2)
  let outs ← uint16 bytes .codeItem (start + 4)
  let tries ← uint16 bytes .codeItem (start + 6)
  let debugInfo ← uint32 bytes .codeItem (start + 8)
  let units ← entries (uint16 bytes .codeItem) 2 size.toNat (start + 16) #[]
  return ⟨offset, registers, ins, outs, tries, debugInfo, units.toList⟩

/-- Reads field entries, whose indices are stored as differences to the entry before. -/
def fieldEntries (bytes : Bytes) :
    (count : Nat) → (last : UInt32) → (offset : Nat) → Array FieldEntry →
      Load (List FieldEntry × Nat)
  | 0, _, offset, done => .ok (done.toList, offset)
  | count + 1, last, offset, done => do
    let (step, offset) ← uleb bytes offset
    let (access, offset) ← uleb bytes offset
    fieldEntries bytes count (last + step) offset (done.push ⟨last + step, ⟨access⟩⟩)

/-- Reads method entries; code offset zero stands for a method without code. -/
def methodEntries (bytes : Bytes) :
    (count : Nat) → (last : UInt32) → (offset : Nat) → Array MethodEntry →
      Load (List MethodEntry × Nat)
  | 0, _, offset, done => .ok (done.toList, offset)
  | count + 1, last, offset, done => do
    let (step, offset) ← uleb bytes offset
    let (access, offset) ← uleb bytes offset
    let (codeOffset, offset) ← uleb bytes offset
    let code ← if codeOffset = 0 then .ok none else (codeItem bytes codeOffset).map some
    methodEntries bytes count (last + step) offset
      (done.push ⟨last + step, ⟨access⟩, codeOffset, code⟩)

def classData (bytes : Bytes) (offset : UInt32) : Load ClassData := do
  let (statics, next) ← uleb bytes offset.toNat
  let (instances, next) ← uleb bytes next
  let (directs, next) ← uleb bytes next
  let (virtuals, next) ← uleb bytes next
  let (staticFields, next) ← fieldEntries bytes statics.toNat 0 next #[]
  let (instanceFields, next) ← fieldEntries bytes instances.toNat 0 next #[]
  let (directMethods, next) ← methodEntries bytes directs.toNat 0 next #[]
  let (virtualMethods, _) ← methodEntries bytes virtuals.toNat 0 next #[]
  return ⟨staticFields, instanceFields, directMethods, virtualMethods⟩

def classDef (bytes : Bytes) (offset : Nat) : Load ClassDef := do
  let word (i : Nat) : Load UInt32 := uint32 bytes .classDef (offset + i * 4)
  let interfacesOffset ← word 3
  let dataOffset ← word 6
  let type ← word 0
  let access ← word 1
  let superclass ← word 2
  let sourceFile ← word 4
  let annotationsOffset ← word 5
  let staticValuesOffset ← word 7
  let interfaces ← typeList bytes interfacesOffset
  let data ← if dataOffset = 0 then .ok none else (classData bytes dataOffset).map some
  return ⟨type, ⟨access⟩, superclass, interfacesOffset, sourceFile, annotationsOffset, dataOffset,
    staticValuesOffset, interfaces, data⟩

def mapItem (bytes : Bytes) (offset : Nat) : Load MapItem := do
  let code ← uint16 bytes .mapItem offset
  match ItemKind.ofCode? code with
  | none => .error (.unknownMapItem code)
  | some kind =>
    let size ← uint32 bytes .mapItem (offset + 4)
    return ⟨kind, size, ← uint32 bytes .mapItem (offset + 8)⟩

/-- The map list; offset zero stands for a file without one. -/
def mapList (bytes : Bytes) (offset : UInt32) : Load (Array MapItem) :=
  if offset = 0 then .ok #[]
  else do
    let start := offset.toNat
    let size ← uint32 bytes .mapList start
    within bytes .mapList (start + 4) (size.toNat * MapItem.byteSize)
    entries (mapItem bytes) MapItem.byteSize size.toNat (start + 4) #[]

def checkedHeader (bytes : Bytes) : Load Header :=
  match Header.decode? bytes with
  | none => .error (.fileTooSmall bytes.size)
  | some header =>
    if !header.hasMagic then .error .invalidMagic
    else match header.version? with
      | none => .error .invalidMagic
      | some version =>
        if version ≠ Header.supportedVersion then .error (.unsupportedVersion version)
        else if !header.isLittleEndian then .error (.badEndian header.endianTag)
        else if header.fileSize.toNat ≠ bytes.size then
          .error (.sizeMismatch header.fileSize bytes.size)
        else if Seal.checksum bytes ≠ header.checksum then
          .error (.checksumMismatch header.checksum (Seal.checksum bytes))
        else if Seal.signature bytes ≠ header.signature then .error .signatureMismatch
        else .ok header

end DexForge.Loader

namespace DexForge.Container

open Loader

def load (bytes : Bytes) : Except ContainerError Container := do
  let header ← checkedHeader bytes
  let strings ← table header.stringIds 4 (stringId bytes)
  let types ← table header.typeIds 4 (uint32 bytes .typeId)
  let protos ← table header.protoIds 12 (protoId bytes)
  let fields ← table header.fieldIds 8 (memberId bytes .fieldId)
  let methods ← table header.methodIds 8 (memberId bytes .methodId)
  let classes ← table header.classDefs 32 (classDef bytes)
  let map ← mapList bytes header.mapOffset
  return ⟨bytes, header, strings, types, protos, fields, methods, classes, map⟩

end DexForge.Container
