import DexForge.Text.Digits

/-! # Access flags of classes, fields and methods -/
set_option autoImplicit false

namespace DexForge

structure AccessFlags where
  bits : UInt32
deriving DecidableEq, Hashable

namespace AccessFlags

def none : AccessFlags := ⟨0⟩
def isPublic : AccessFlags := ⟨0x0001⟩
def isPrivate : AccessFlags := ⟨0x0002⟩
def isProtected : AccessFlags := ⟨0x0004⟩
def isStatic : AccessFlags := ⟨0x0008⟩
def isFinal : AccessFlags := ⟨0x0010⟩
def isSynchronized : AccessFlags := ⟨0x0020⟩
def isBridge : AccessFlags := ⟨0x0040⟩
def isVarargs : AccessFlags := ⟨0x0080⟩
def isNative : AccessFlags := ⟨0x0100⟩
def isInterface : AccessFlags := ⟨0x0200⟩
def isAbstract : AccessFlags := ⟨0x0400⟩
def isSynthetic : AccessFlags := ⟨0x1000⟩
def isConstructor : AccessFlags := ⟨0x10000⟩

def visibility : AccessFlags := ⟨0x0007⟩

def contains (a b : AccessFlags) : Bool := a.bits &&& b.bits == b.bits

def intersects (a b : AccessFlags) : Bool := a.bits &&& b.bits != 0

def union (a b : AccessFlags) : AccessFlags := ⟨a.bits ||| b.bits⟩

def inter (a b : AccessFlags) : AccessFlags := ⟨a.bits &&& b.bits⟩

def without (a b : AccessFlags) : AccessFlags := ⟨a.bits &&& ~~~b.bits⟩

def isEmpty (a : AccessFlags) : Bool := a.bits == 0

instance : OrOp AccessFlags := ⟨union⟩

/-- The flags that have a keyword, in bit order. -/
def keywordTable : List (AccessFlags × String) :=
  [(isPublic, "public"), (isPrivate, "private"), (isProtected, "protected"),
   (isStatic, "static"), (isFinal, "final"), (isSynchronized, "synchronized"),
   (isBridge, "bridge"), (isVarargs, "varargs"), (isNative, "native"),
   (isInterface, "interface"), (isAbstract, "abstract"), (isSynthetic, "synthetic"),
   (isConstructor, "constructor")]

def keywords (a : AccessFlags) : List String :=
  (keywordTable.filter fun entry => a.contains entry.1).map Prod.snd

def text (a : AccessFlags) : String := " ".intercalate a.keywords

def inspect (a : AccessFlags) : String :=
  "AccessFlags(" ++ Digits.hexLiteral 4 a.bits.toNat ++ ": " ++ a.text ++ ")"

/-- Flags of a method that overrides one declared with `declared`: it stays protected when it was
protected and not public, keeps the varargs bit, and loses everything else. -/
def overriding (declared : AccessFlags) : AccessFlags :=
  let visible :=
    if declared.contains isProtected && !declared.contains isPublic then isProtected else isPublic
  visible ||| declared.inter isVarargs

end AccessFlags

end DexForge
