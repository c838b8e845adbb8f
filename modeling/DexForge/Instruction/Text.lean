import DexForge.Instruction.Basic

/-! # Instructions as text -/
set_option autoImplicit false

namespace DexForge.Instruction

def mnemonic : Instruction → String
  | returnVoid => "return-void"
  | returnValue _ => "return"
  | returnWide _ => "return-wide"
  | returnObject _ => "return-object"
  | moveResult _ => "move-result"
  | moveResultWide _ => "move-result-wide"
  | moveResultObject _ => "move-result-object"
  | moveFrom16 _ _ => "move/from16"
  | moveWideFrom16 _ _ => "move-wide/from16"
  | moveObjectFrom16 _ _ => "move-object/from16"
  | const4 _ _ => "const/4"
  | const16 _ _ => "const/16"
  | const32 _ _ => "const"
  | constString _ _ => "const-string"
  | constStringJumbo _ _ => "const-string/jumbo"
  | checkCast _ _ => "check-cast"
  | newArray _ _ _ => "new-array"
  | agetObject _ _ _ => "aget-object"
  | aputObject _ _ _ => "aput-object"
  | igetObject _ _ _ => "iget-object"
  | iputObject _ _ _ => "iput-object"
  | sgetObject _ _ => "sget-object"
  | invoke kind _ _ => kind.mnemonic
  | invokeRange kind _ _ _ => kind.mnemonic ++ "/range"

def registerText (reg : Nat) : String := s!"v{reg}"

def registerList (regs : List Nat) : String := ", ".intercalate (regs.map registerText)

def literalText (dst : UInt8) (value : Int) : String := registerText dst.toNat ++ s!", #{value}"

def operands : Instruction → String
  | returnVoid => ""
  | returnValue a | returnWide a | returnObject a | moveResult a | moveResultWide a
  | moveResultObject a | constString a _ | constStringJumbo a _ | sgetObject a _
  | checkCast a _ => registerList [a.toNat]
  | moveFrom16 a b | moveWideFrom16 a b | moveObjectFrom16 a b => registerList [a.toNat, b.toNat]
  | const4 dst value => literalText dst value.toInt
  | const16 dst value => literalText dst value.toInt
  | const32 dst value => literalText dst value.toInt
  | newArray a b _ | igetObject a b _ | iputObject a b _ => registerList [a.toNat, b.toNat]
  | agetObject a b c | aputObject a b c => registerList [a.toNat, b.toNat, c.toNat]
  | invoke _ _ args => "\x7b" ++ registerList (args.map UInt8.toNat) ++ "\x7d"
  | invokeRange _ _ first count =>
    if count = 0 then "\x7b\x7d"
    else "\x7b" ++ registerText first.toNat ++ " .. " ++
      registerText (first.toNat + count.toNat - 1) ++ "\x7d"

def textWith (i : Instruction) (target : Option String) : String :=
  let registers := if i.operands.isEmpty then "" else " " ++ i.operands
  i.mnemonic ++ registers ++ match target with
    | some text => ", " ++ text
    | none => ""

def text (i : Instruction) : String :=
  i.textWith (i.reference?.map fun r => r.kind.label ++ s!"@{r.index}")

end DexForge.Instruction
