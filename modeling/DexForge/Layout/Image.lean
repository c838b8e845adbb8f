import DexForge.Container.Encoding
import DexForge.Container.Header
import DexForge.Instruction.Codec
import DexForge.Layout.ClassOrder
import DexForge.Layout.DataRegion
import DexForge.Proxy.Lowering

/-! # The image of a container

The header is followed by the id sections and the data: code items, type lists, string data, class
data and the map list.
-/
set_option autoImplicit false

namespace DexForge.Image

/-- The id sections one behind the other; an empty section has offset zero. -/
structure Sections where
  strings : Section
  types : Section
  protos : Section
  fields : Section
  methods : Section
  classes : Section
  stop : Nat

def sectionAt (offset count : Nat) : Section :=
  if count = 0 then .empty else ⟨UInt32.ofNat count, UInt32.ofNat offset⟩

def sections (tables : Tables) (classCount : Nat) : Sections :=
  let types := headerSize + 4 * tables.strings.size
  let protos := types + 4 * tables.types.size
  let fields := protos + 12 * tables.protos.size
  let methods := fields + 8 * tables.fields.size
  let classes := methods + 8 * tables.methods.size
  { strings := sectionAt headerSize tables.strings.size
    types := sectionAt types tables.types.size
    protos := sectionAt protos tables.protos.size
    fields := sectionAt fields tables.fields.size
    methods := sectionAt methods tables.methods.size
    classes := sectionAt classes classCount
    stop := classes + 32 * classCount }

def placeCode (tables : Tables) (body : MethodBody Slot) : Placing CodeItem := do
  Placing.align
  let offset ← Placing.here .codeItem
  let instructions ← monadLift (body.code.mapM (Operation.lower tables))
  let units := instructions.flatMap Instruction.encode
  if 0x100000000 ≤ units.length then
    throw (.layoutOverflow (.codeUnits body.spec.signature units.length))
  let code : CodeItem := ⟨offset, body.registers, body.ins, body.outs, 0, 0, units⟩
  Placing.append code.encode
  return code

def placeMethod (tables : Tables) (m : LinkedMethod) : Placing MethodEntry := do
  let code ← placeCode tables m.body
  return ⟨m.method.toUInt32, m.access, code.offset, some code⟩

def compareFields (a b : FieldEntry) : Ordering :=
  (compare a.field b.field).then (compare a.access.bits b.access.bits)

def compareMethods (a b : MethodEntry) : Ordering :=
  (compare a.method b.method).then
    ((compare a.access.bits b.access.bits).then (compare a.codeOffset b.codeOffset))

def sortFields (fields : List FieldEntry) : List FieldEntry :=
  fields.mergeSort fun a b => (compareFields a b).isLE

def sortMethods (methods : List MethodEntry) : List MethodEntry :=
  methods.mergeSort fun a b => (compareMethods a b).isLE

/-- Appends the code of a class in the order of declaration. -/
def placeMethods (tables : Tables) (c : LinkedClass) : Placing ClassData := do
  let direct ← c.directMethods.mapM (placeMethod tables)
  let virtual ← c.virtualMethods.mapM (placeMethod tables)
  return ⟨c.staticFields, c.instanceFields, direct, virtual⟩

def sortMembers (d : ClassData) : ClassData :=
  ⟨sortFields d.staticFields, sortFields d.instanceFields, sortMethods d.directMethods,
   sortMethods d.virtualMethods⟩

instance lawfulTypeLists : LawfulBEq (List UInt16) := inferInstance

/-- The type lists that a container stores: equal ones once, empty ones not at all. -/
def collectTypeLists (lists : List (List UInt16)) : Catalog (List UInt16) :=
  lists.foldl (fun c types => if types.isEmpty then c else (c.insert types).2) .empty

def typeListOffset (stored : Catalog (List UInt16)) (offsets : Array UInt32) (types : List UInt16) :
    UInt32 :=
  match stored.find? types with
  | some i => offsets.getD i 0
  | none => 0

def protoId (typeList : List UInt16 → UInt32) (row : ProtoRow) : ProtoId :=
  ⟨row.shorty, row.returns.toUInt32, typeList row.params, row.params⟩

def classDef (typeList : List UInt16 → UInt32) (c : LinkedClass) (data : ClassData)
    (dataOffset : UInt32) : ClassDef where
  type := c.type.toUInt32
  access := c.access
  superclass := (c.superclass.map UInt16.toUInt32).getD noIndex
  interfacesOffset := typeList c.interfaces
  sourceFile := c.sourceFile.getD noIndex
  annotationsOffset := 0
  dataOffset := dataOffset
  staticValuesOffset := 0
  interfaces := c.interfaces
  data := some data

def mapSection (kind : ItemKind) (s : Section) : List MapItem :=
  if s.size = 0 then [] else [⟨kind, s.size, s.offset⟩]

def mapItems (kind : ItemKind) (offsets : List UInt32) : List MapItem :=
  match offsets with
  | [] => []
  | first :: _ => [⟨kind, UInt32.ofNat offsets.length, first⟩]

structure Draft where
  protos : List ProtoId
  classes : List ClassDef
  stringOffsets : List UInt32
  mapOffset : UInt32

def placeData (tables : Tables) (ids : Sections) (classes : List LinkedClass) : Placing Draft := do
  let declared ← classes.mapM (placeMethods tables)
  let data := declared.map sortMembers
  let rows := tables.protos.entries.toList
  let lists := collectTypeLists (rows.map ProtoRow.params ++ classes.map LinkedClass.interfaces)
  let listOffsets ← lists.entries.toList.mapM fun types =>
    Placing.alignedItem .typeList (encodeTypeList types)
  let typeList := typeListOffset lists listOffsets.toArray
  let stringOffsets ← tables.strings.entries.toList.mapM fun text =>
    Placing.item .stringData (encodeText text)
  let dataOffsets ← data.mapM fun d => Placing.item .classData d.encode
  Placing.align
  let mapOffset ← Placing.here .mapList
  let codeOffsets := declared.flatMap fun d => d.methods.map MethodEntry.codeOffset
  Placing.append <| encodeMap <|
    [⟨.header, 1, 0⟩] ++
      mapSection .stringId ids.strings ++ mapSection .typeId ids.types ++
      mapSection .protoId ids.protos ++ mapSection .fieldId ids.fields ++
      mapSection .methodId ids.methods ++ mapSection .classDef ids.classes ++
      mapItems .codeItem codeOffsets ++ mapItems .typeList listOffsets ++
      mapItems .stringData stringOffsets ++ mapItems .classData dataOffsets ++
      [⟨.mapList, 1, mapOffset⟩]
  return {
    protos := rows.map (protoId typeList)
    classes := (classes.zip (data.zip dataOffsets)).map fun (c, d, offset) =>
      classDef typeList c d offset
    stringOffsets
    mapOffset }

def idBytes (tables : Tables) (draft : Draft) : List UInt8 :=
  draft.stringOffsets.flatMap LittleEndian.ofUInt32 ++
    tables.types.entries.toList.flatMap LittleEndian.ofUInt32 ++
    draft.protos.flatMap ProtoId.encode ++
    tables.fields.entries.toList.flatMap MemberId.encode ++
    tables.methods.entries.toList.flatMap MemberId.encode ++
    draft.classes.flatMap ClassDef.encode

def header (ids : Sections) (mapOffset fileSize : UInt32) : Header :=
  { Header.blank with
    fileSize
    mapOffset
    stringIds := ids.strings
    typeIds := ids.types
    protoIds := ids.protos
    fieldIds := ids.fields
    methodIds := ids.methods
    classDefs := ids.classes
    data := ⟨fileSize - UInt32.ofNat ids.stop, UInt32.ofNat ids.stop⟩ }

def write (tables : Tables) (classes : List ClassDefinition) : Except SynthesisError Bytes := do
  let classes ← ClassOrder.arrange (← classes.mapM tables.link)
  let ids := sections tables classes.length
  let (draft, region) ← (placeData tables ids classes).run ⟨ids.stop, #[]⟩
  let fileSize ← Placing.offset32 .fileSize region.stop
  let head := (header ids draft.mapOffset fileSize).encode ++ idBytes tables draft
  return Seal.stamp (head.toArray ++ region.bytes)

end DexForge.Image
