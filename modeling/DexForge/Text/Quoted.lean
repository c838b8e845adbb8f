import DexForge.Text.Digits
import DexForge.Text.Escaped

/-! # Quoted text -/
set_option autoImplicit false

namespace DexForge.Quoted

def encodeChar (c : Char) : String :=
  if c = Char.ofNat 0 then "\\0"
  else if c = '\t' then "\\t"
  else if c = '\r' then "\\r"
  else if c = '\n' then "\\n"
  else if c = '"' then "\\\""
  else if c = '\\' then "\\\\"
  else if Escaped.isEscaped c then "\\u\x7b" ++ Digits.hex 1 c.toNat ++ "\x7d"
  else c.toString

/-- The text between quotes on one line, with everything that does not print by itself escaped. -/
def encode (text : String) : String :=
  "\"" ++ String.join (text.toList.map encodeChar) ++ "\""

end DexForge.Quoted
