import DexForge.Container.Basic
import DexForge.Instruction.Text
import DexForge.Palette
import DexForge.Text.Quoted

/-! # Listing a container as text

Sections follow the order of the file: header, the five id tables, the classes with their
disassembled code, and the map. An entry of a table stands behind its letter and index.
-/
set_option autoImplicit false

namespace DexForge.Container

abbrev Lines := List String

def indexWidth (count : Nat) : Nat := (Nat.toDigits 10 (max (count - 1) 1)).length

def heading (p : Palette) (title : String) : String := p.structural s!"[{title}]"

def tableLines {α : Type} (p : Palette) (letter : String)
    (render : α → Except ContainerError String) (entries : List α) :
    Except ContainerError Lines := do
  let width := indexWidth entries.length
  entries.zipIdx.mapM fun (a, i) => do
    let text ← render a
    return p.structural (letter ++ Digits.decimal width i) ++ " " ++ text

def headerLines (c : Container) (p : Palette) : Lines :=
  let h := c.header
  ["version   " ++ Digits.decimal 3 (h.version?.getD 0),
   s!"file_size {h.fileSize}",
   "checksum  " ++ p.structural (Digits.hexLiteral 8 h.checksum.toNat),
   "signature " ++ p.structural (Digits.ofBytes h.signature.toList)]

def fieldText (c : Container) (p : Palette) (index : UInt32) : Except ContainerError String := do
  let r ← c.fieldRef index
  return r.owner ++ "->" ++ p.name r.name ++ ":" ++ p.literal r.descriptor

def methodText (c : Container) (p : Palette) (index : UInt32) : Except ContainerError String := do
  let r ← c.methodRef index
  return r.owner ++ "->" ++ p.name r.name ++ p.literal r.descriptor

def protoLine (c : Container) (p : Palette) (index : UInt32) (proto : ProtoId) :
    Except ContainerError String := do
  let text ← c.protoText index
  let shorty ← c.string proto.shorty
  return p.literal text ++ " " ++ p.structural shorty

def referenceText (c : Container) (p : Palette) (r : Reference) : Except ContainerError String :=
  match r.kind with
  | .string => (c.string r.index).map fun text => p.literal (Quoted.encode text)
  | .type => (c.typeText r.index).map p.literal
  | .field => c.fieldText p r.index
  | .method => c.methodText p r.index

def instructionText (c : Container) (p : Palette) (i : Instruction) :
    Except ContainerError String :=
  match i.reference? with
  | some r => (c.referenceText p r).map fun target => i.textWith (some target)
  | none => .ok (i.textWith none)

def codeLines (c : Container) (p : Palette) (code : CodeItem) : Except ContainerError Lines := do
  let frame := s!"registers={code.registers} ins={code.ins} outs={code.outs}"
  let instructions ← code.instructions
  let body ← instructions.toList.mapM fun (pc, i) => do
    let text ← c.instructionText p i
    return "    " ++ p.structural (Digits.hex 4 pc) ++ " " ++ text
  return ("    " ++ p.structural frame) :: body

def fieldLine (c : Container) (p : Palette) (label : String) (f : FieldEntry) :
    Except ContainerError String := do
  let text ← c.fieldText p f.field
  return s!"  {label} {text} " ++ p.structural f.access.text

def methodLines (c : Container) (p : Palette) (label : String) (m : MethodEntry) :
    Except ContainerError Lines := do
  let text ← c.methodText p m.method
  let line := s!"  {label} {text} " ++ p.structural m.access.text
  match m.code with
  | some code => return line :: (← c.codeLines p code)
  | none => return [line]

def dataLines (c : Container) (p : Palette) (d : ClassData) : Except ContainerError Lines := do
  let statics ← d.staticFields.mapM (c.fieldLine p "static field")
  let instances ← d.instanceFields.mapM (c.fieldLine p "field")
  let directs ← d.directMethods.mapM (c.methodLines p "direct")
  let virtuals ← d.virtualMethods.mapM (c.methodLines p "virtual")
  return statics ++ instances ++ directs.flatten ++ virtuals.flatten

def classLines (c : Container) (p : Palette) (d : ClassDef) : Except ContainerError Lines := do
  let name ← c.typeText d.type
  let title := "class " ++ p.name name ++ " " ++ p.structural d.access.text
  let superclass ←
    if d.superclass = noIndex then .ok []
    else (c.typeText d.superclass).map fun text => ["  extends " ++ text]
  let interfaces ← d.interfaces.mapM fun interface =>
    (c.typeText interface.toUInt32).map fun text => "  implements " ++ text
  let source ←
    if d.sourceFile = noIndex then .ok []
    else (c.string d.sourceFile).map fun text => ["  source " ++ p.literal (Quoted.encode text)]
  let data ← match d.data with
    | some data => c.dataLines p data
    | none => pure []
  return title :: superclass ++ interfaces ++ source ++ data

def mapLine (p : Palette) (item : MapItem) : String :=
  p.structural (Digits.hexLiteral 4 item.offset.toNat) ++ s!" {item.kind.name} {item.size}"

def unlines (lines : Lines) : String := String.join (lines.map (· ++ "\n"))

/-- The listing, or the first index in it that does not resolve. -/
def listing (c : Container) (p : Palette) : Except ContainerError String := do
  let strings ← tableLines p "S" (fun s => .ok (p.literal (Quoted.encode s))) c.strings.toList
  let types ← tableLines p "T" (fun i => (c.typeText i).map p.literal)
    ((List.range c.types.size).map UInt32.ofNat)
  let protos ← tableLines p "P" (fun (proto, i) => c.protoLine p (UInt32.ofNat i) proto)
    c.protos.toList.zipIdx
  let fields ← tableLines p "F" (c.fieldText p) ((List.range c.fields.size).map UInt32.ofNat)
  let methods ← tableLines p "M" (c.methodText p) ((List.range c.methods.size).map UInt32.ofNat)
  let classes ← c.classes.toList.mapM (c.classLines p)
  let block (title : String) (lines : Lines) : String := unlines (heading p title :: lines)
  return "\n".intercalate
    [block "header" (c.headerLines p), block "strings" strings, block "types" types,
     block "protos" protos, block "fields" fields, block "methods" methods,
     unlines [heading p "classes"] ++ "\n".intercalate (classes.map unlines),
     block "map" (c.map.toList.map (mapLine p))]

end DexForge.Container
