/-! # Simple names

Class name segments, method names and field names are nonempty words over one character class.
-/
set_option autoImplicit false

namespace DexForge.Name

/-- Code points beyond ASCII that a simple name may hold, as closed ranges. -/
def wideRanges : List (Nat × Nat) :=
  [(0xa1, 0x1fff), (0x2010, 0x2027), (0x2030, 0xd7ff), (0xe000, 0xffef), (0x10000, 0x10ffff)]

def isSimpleChar (c : Char) : Bool :=
  c.isAlphanum || c == '$' || c == '-' || c == '_' ||
    wideRanges.any fun range => range.1 ≤ c.toNat && c.toNat ≤ range.2

def isSimpleList (cs : List Char) : Bool :=
  !cs.isEmpty && cs.all isSimpleChar

def isSimple (name : String) : Bool :=
  isSimpleList name.toList

def constructor : String := "<init>"

def classInitializer : String := "<clinit>"

end DexForge.Name
