import DexForge.Name

/-! # Class names

A class name is a path of simple names divided by slashes.
-/
set_option autoImplicit false

namespace DexForge

inductive TypeFault where
  | dimensions
  | missingElement
  | void
  | unterminatedClass
  | emptyClass
  | emptySegment
  | illegalCharacter
  | trailing
  | unknownLetter
deriving DecidableEq, Repr

def TypeFault.message : TypeFault → String
  | dimensions => "more than 255 array dimensions"
  | missingElement => "missing array element type"
  | void => "void is only valid as a return type"
  | unterminatedClass => "class descriptor must end with `;`"
  | emptyClass => "empty class name"
  | emptySegment => "empty package or class segment"
  | illegalCharacter => "illegal character in class name"
  | trailing => "trailing characters after primitive"
  | unknownLetter => "unknown type character"

namespace ClassName

/-- The first fault among the segments of a path; `inSegment` tells whether the segment being read
already has a character. -/
def segmentFault? : (inSegment : Bool) → List Char → Option TypeFault
  | inSegment, [] => if inSegment then none else some .emptySegment
  | inSegment, c :: rest =>
    if c == '/' then
      if inSegment then segmentFault? false rest else some .emptySegment
    else if Name.isSimpleChar c then segmentFault? true rest
    else some .illegalCharacter

def fault? (path : List Char) : Option TypeFault :=
  if path.isEmpty then some .emptyClass else segmentFault? false path

end ClassName

/-- A class name that passed every check on its segments. -/
structure ClassName where
  path : String
  wellFormed : ClassName.fault? path.toList = none
deriving DecidableEq, Hashable

namespace ClassName

def ofChars (path : List Char) : Except TypeFault ClassName :=
  match h : fault? path with
  | none => .ok ⟨String.ofList path, by rw [String.toList_ofList]; exact h⟩
  | some fault => .error fault

def text (c : ClassName) : String :=
  "L" ++ c.path ++ ";"

def dotted (c : ClassName) : String :=
  String.ofList (c.path.toList.map fun x => if x == '/' then '.' else x)

def object : ClassName := ⟨"java/lang/Object", by decide⟩

def string : ClassName := ⟨"java/lang/String", by decide⟩

def reflectMethod : ClassName := ⟨"java/lang/reflect/Method", by decide⟩

end ClassName

end DexForge
