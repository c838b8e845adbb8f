import DexForge.Container.TableName
import DexForge.Descriptor.TypeDescriptor
import DexForge.Text.Digits

/-! # Why a synthesis fails -/
set_option autoImplicit false

namespace DexForge

/-- Longest text that the string table takes, in UTF-16 units. -/
def maxStringUnits : Nat := 65535

def maxIndexed : Nat := 65536

inductive ClassRole where
  | className | superclass | interface
deriving DecidableEq, Repr

def ClassRole.text : ClassRole → String
  | className => "class name"
  | superclass => "superclass"
  | interface => "interface"

inductive EncodingFault where
  | longString (units : Nat)
  | crowdedTable (table : TableName) (count : Nat)
  | badDescriptor (cause : DescriptorError)
  | handlerNotClass (type : String)
  | ordinal (n : Nat)
  | badClass (owner : String) (role : ClassRole) (cause : DescriptorError)
  | notClass (owner : String) (role : ClassRole) (text : String)
  | handlerField (name : String)
  | methodArrayField (name : String)
  | wideRegister (register : UInt8)
  | scatteredArguments (args : List UInt16)
deriving DecidableEq, Repr

def EncodingFault.message : EncodingFault → String
  | longString units => s!"string of {units} UTF-16 units exceeds {maxStringUnits}"
  | crowdedTable table count => "too many " ++ table.plural ++ s!": {count} (max {maxIndexed})"
  | badDescriptor cause => cause.message
  | handlerNotClass type => s!"handler type `{type}` is not a class descriptor"
  | ordinal n => s!"method ordinal {n} out of range"
  | badClass owner role cause => owner ++ ": " ++ role.text ++ ": " ++ cause.message
  | notClass owner role text =>
    owner ++ ": " ++ role.text ++ s!" `{text}` is not a class descriptor"
  | handlerField name => s!"invalid handler field name `{name}`"
  | methodArrayField name => s!"invalid method array field name `{name}`"
  | wideRegister register => s!"register v{register} does not fit a 4-bit operand"
  | scatteredArguments args =>
    "invoke arguments [" ++ ", ".intercalate (args.map fun reg => toString reg.toNat) ++
      "] are neither narrow nor contiguous"

inductive SignatureFault where
  | methodName
  | parameter (position : Nat) (cause : DescriptorError)
  | voidParameter (position : Nat)
  | returnType (cause : DescriptorError)
  | registers
deriving DecidableEq, Repr

def SignatureFault.message : SignatureFault → String
  | methodName => "invalid method name"
  | parameter position cause => s!"parameter {position}: " ++ cause.message
  | voidParameter position => s!"parameter {position} has type `V`"
  | returnType cause => "return type: " ++ cause.message
  | registers => "parameters exceed the register file"

inductive ConflictFault where
  | interfaceTwice
  | methodTwice
  | finalMethod
  | classTwice
  | cycle
deriving DecidableEq, Repr

def ConflictFault.message : ConflictFault → String
  | interfaceTwice => "interface listed more than once"
  | methodTwice => "declared more than once"
  | finalMethod => "final methods cannot be proxied"
  | classTwice => "class defined more than once"
  | cycle => "cyclic class hierarchy"

inductive Placement where
  | codeItem | typeList | stringData | classData | mapList | fileSize
deriving DecidableEq, Repr

def Placement.text : Placement → String
  | codeItem => "code item"
  | typeList => "type list"
  | stringData => "string data"
  | classData => "class data"
  | mapList => "map list"
  | fileSize => "file size"

inductive OverflowFault where
  | offset (placement : Placement) (n : Nat)
  | codeUnits (signature : String) (units : Nat)
deriving DecidableEq, Repr

def OverflowFault.message : OverflowFault → String
  | offset placement n =>
    placement.text ++ " offset " ++ Digits.hexLiteral 1 n ++ " exceeds 32 bits"
  | codeUnits signature units =>
    s!"{signature}: {units} code units exceed the code item size field"

/-- `dangling` tells of a slot that is not one of the tables it is used with, `arithmeticOverflow` of
a sum with more bits than its type. They are no answers: the program stops there. -/
inductive SynthesisError where
  | encoding (fault : EncodingFault)
  | unsupportedSignature (method : String) (fault : SignatureFault)
  | conflict (subject : String) (fault : ConflictFault)
  | layoutOverflow (fault : OverflowFault)
  | dangling (table : TableName) (position : Nat)
  | arithmeticOverflow
deriving DecidableEq, Repr

def SynthesisError.message : SynthesisError → String
  | encoding fault => "encoding error: " ++ fault.message
  | unsupportedSignature method fault =>
    s!"unsupported signature for `{method}`: " ++ fault.message
  | conflict subject fault => s!"conflict on `{subject}`: " ++ fault.message
  | layoutOverflow fault => "layout overflow: " ++ fault.message
  | dangling table position => table.text ++ s!" slot {position} is not in the finished tables"
  | arithmeticOverflow => "arithmetic overflow"

end DexForge
