import DexForge.Descriptor.ClassName
import DexForge.Descriptor.Primitive

/-! # Type descriptors

A type is `V`, or up to 255 brackets in front of a primitive letter or a class descriptor.
-/
set_option autoImplicit false

namespace DexForge

inductive DescriptorError where
  | empty
  | invalid (descriptor : String) (fault : TypeFault)
  | invalidMethod (descriptor : String)
deriving DecidableEq, Repr

def DescriptorError.message : DescriptorError → String
  | empty => "empty type descriptor"
  | invalid descriptor fault => s!"invalid type descriptor `{descriptor}`: " ++ fault.message
  | invalidMethod descriptor => s!"invalid method descriptor `{descriptor}`"

/-- What an array holds in the end, or the type itself when it has no dimension. -/
inductive ElementType where
  | primitive (p : Primitive)
  | object (name : ClassName)
deriving DecidableEq, Hashable

inductive TypeDescriptor where
  | void
  | field (dims : Fin 256) (element : ElementType)
deriving DecidableEq, Hashable

namespace ElementType

def text : ElementType → String
  | primitive p => p.letter.toString
  | object name => name.text

def parse : List Char → Except TypeFault ElementType
  | [] => .error .missingElement
  | 'V' :: _ => .error .void
  | 'L' :: rest =>
    if rest.getLast? = some ';' then (ClassName.ofChars rest.dropLast).map object
    else .error .unterminatedClass
  | c :: rest =>
    match Primitive.ofLetter? c with
    | some p => if rest.isEmpty then .ok (primitive p) else .error .trailing
    | none => .error .unknownLetter

end ElementType

namespace TypeDescriptor

def text : TypeDescriptor → String
  | void => "V"
  | field dims element => String.ofList (List.replicate dims '[') ++ element.text

def parse (text : String) : Except DescriptorError TypeDescriptor :=
  if text.isEmpty then .error .empty
  else if text = "V" then .ok void
  else
    let brackets := text.toList.takeWhile (· == '[')
    if h : brackets.length < 256 then
      match ElementType.parse (text.toList.drop brackets.length) with
      | .ok element => .ok (field ⟨brackets.length, h⟩ element)
      | .error fault => .error (.invalid text fault)
    else .error (.invalid text .dimensions)

def ofPrimitive (p : Primitive) : TypeDescriptor := field 0 (.primitive p)

def ofClass (name : ClassName) : TypeDescriptor := field 0 (.object name)

def object : TypeDescriptor := ofClass .object

def objectArray : TypeDescriptor := field 1 (.object .object)

def isVoid : TypeDescriptor → Bool
  | void => true
  | _ => false

def isArray : TypeDescriptor → Bool
  | field dims _ => 0 < dims.val
  | void => false

def primitive? : TypeDescriptor → Option Primitive
  | field 0 (.primitive p) => some p
  | _ => none

def className? : TypeDescriptor → Option ClassName
  | field 0 (.object name) => some name
  | _ => none

def isReference (t : TypeDescriptor) : Bool :=
  !t.isVoid && t.primitive?.isNone

def width (t : TypeDescriptor) : Nat :=
  if t.isVoid then 0
  else match t.primitive? with
    | some p => if p.isWide then 2 else 1
    | none => 1

/-- Every reference type has the letter `L`. -/
def shorty : TypeDescriptor → Char
  | void => 'V'
  | field 0 (.primitive p) => p.letter
  | field _ _ => 'L'

def sourceName : TypeDescriptor → String
  | void => "void"
  | field dims element =>
    let base := match element with
      | .primitive p => p.keyword
      | .object name => name.dotted
    base ++ String.join (List.replicate dims "[]")

def inspect (t : TypeDescriptor) : String := s!"TypeDescriptor({t.text})"

/-- Descriptors are ordered as their texts, character by character. -/
instance : Ord TypeDescriptor := ⟨fun a b => compare a.text.toList b.text.toList⟩

end TypeDescriptor

def Primitive.wrapper : Primitive → ClassName
  | .boolean => ⟨"java/lang/Boolean", by decide⟩
  | .byte => ⟨"java/lang/Byte", by decide⟩
  | .short => ⟨"java/lang/Short", by decide⟩
  | .char => ⟨"java/lang/Character", by decide⟩
  | .int => ⟨"java/lang/Integer", by decide⟩
  | .long => ⟨"java/lang/Long", by decide⟩
  | .float => ⟨"java/lang/Float", by decide⟩
  | .double => ⟨"java/lang/Double", by decide⟩

end DexForge
