/-! # Terminal colours of a listing -/
set_option autoImplicit false

namespace DexForge

/-- Escape sequences for the three roles of text in a listing, and the way back to plain text. -/
structure Palette where
  nameCode : String
  literalCode : String
  metaCode : String
  resetCode : String

namespace Palette

def plain : Palette := ⟨"", "", "", ""⟩

def ansi : Palette := ⟨"\x1b[34m", "\x1b[32m", "\x1b[2m", "\x1b[0m"⟩

def ofEnabled (enabled : Bool) : Palette := if enabled then ansi else plain

instance : Inhabited Palette := ⟨plain⟩

def isEnabled (p : Palette) : Bool := !p.nameCode.isEmpty

def name (p : Palette) (text : String) : String := p.nameCode ++ text ++ p.resetCode

def literal (p : Palette) (text : String) : String := p.literalCode ++ text ++ p.resetCode

def structural (p : Palette) (text : String) : String := p.metaCode ++ text ++ p.resetCode

end Palette

end DexForge
