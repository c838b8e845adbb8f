import DexForge.Access
import DexForge.Descriptor.TypeDescriptor

/-! # Capability descriptions

What a proxy class should be called and offer. Descriptors are kept as they were given; they are
checked when the class is made, so that a fault can be told with the method that has it.
-/
set_option autoImplicit false

namespace DexForge

inductive AccessKeyword where
  | isPublic | isProtected | isPrivate | isStatic | isFinal | isSynchronized | isBridge | isVarargs
  | isNative | isAbstract | isSynthetic
deriving DecidableEq, Repr

namespace AccessKeyword

def all : List AccessKeyword :=
  [isPublic, isProtected, isPrivate, isStatic, isFinal, isSynchronized, isBridge, isVarargs,
   isNative, isAbstract, isSynthetic]

def text : AccessKeyword → String
  | isPublic => "public"
  | isProtected => "protected"
  | isPrivate => "private"
  | isStatic => "static"
  | isFinal => "final"
  | isSynchronized => "synchronized"
  | isBridge => "bridge"
  | isVarargs => "varargs"
  | isNative => "native"
  | isAbstract => "abstract"
  | isSynthetic => "synthetic"

def ofText? (text : String) : Option AccessKeyword := all.find? fun keyword => keyword.text == text

theorem ofText?_text (keyword : AccessKeyword) : ofText? keyword.text = some keyword := by
  cases keyword <;> decide

def flag : AccessKeyword → AccessFlags
  | isPublic => .isPublic
  | isProtected => .isProtected
  | isPrivate => .isPrivate
  | isStatic => .isStatic
  | isFinal => .isFinal
  | isSynchronized => .isSynchronized
  | isBridge => .isBridge
  | isVarargs => .isVarargs
  | isNative => .isNative
  | isAbstract => .isAbstract
  | isSynthetic => .isSynthetic

end AccessKeyword

structure MethodDescription where
  name : String
  params : List String
  returns : String
  access : List AccessKeyword
deriving DecidableEq, Repr

namespace MethodDescription

def defaultReturns : String := "V"

def defaultAccess : List AccessKeyword := [.isPublic, .isAbstract]

def new (name : String) (params : List String) (returns : String) : MethodDescription :=
  ⟨name, params, returns, defaultAccess⟩

def flags (m : MethodDescription) : AccessFlags :=
  m.access.foldl (fun flags keyword => flags ||| keyword.flag) .none

end MethodDescription

structure ClassDescription where
  name : String
  superclass : String
  interfaces : List String
  sourceFile : Option String
  methods : List MethodDescription
deriving DecidableEq, Repr

namespace ClassDescription

def defaultSuperclass : String := TypeDescriptor.object.text

def new (name : String) : ClassDescription := ⟨name, defaultSuperclass, [], none, []⟩

def extending (d : ClassDescription) (superclass : String) : ClassDescription :=
  { d with superclass }

def implementing (d : ClassDescription) (interface : String) : ClassDescription :=
  { d with interfaces := d.interfaces ++ [interface] }

def fromSource (d : ClassDescription) (file : String) : ClassDescription :=
  { d with sourceFile := some file }

def withMethod (d : ClassDescription) (m : MethodDescription) : ClassDescription :=
  { d with methods := d.methods ++ [m] }

end ClassDescription

end DexForge
