/-! # The five id tables -/
set_option autoImplicit false

namespace DexForge

inductive TableName where
  | string | type | proto | field | method
deriving DecidableEq, Repr

namespace TableName

def text : TableName → String
  | string => "string"
  | type => "type"
  | proto => "proto"
  | field => "field"
  | method => "method"

def plural (t : TableName) : String := t.text ++ "s"

def sectionName (t : TableName) : String := t.text ++ "_ids"

end TableName

end DexForge
