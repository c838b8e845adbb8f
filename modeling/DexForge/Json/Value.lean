import DexForge.Json.Number

/-! # JSON values -/
set_option autoImplicit false

namespace DexForge

/-- Members of an object stand in the order of the text, repeated keys included. `malformed` is a
value that the grammar allows but that denotes nothing: a text with an unpaired surrogate, an object
with such a key, or a number that no double holds. It can be passed over but not used. -/
inductive JsonValue where
  | null
  | bool (b : Bool)
  | number (n : JsonNumber)
  | string (text : String)
  | array (items : List JsonValue)
  | object (members : List (String × JsonValue))
  | malformed
deriving Inhabited

end DexForge
