import DexForge.Access
import DexForge.Descriptor.ProtoDescriptor
import DexForge.Name

/-! # Methods to be proxied -/
set_option autoImplicit false

namespace DexForge

structure MethodSpec where
  name : String
  proto : ProtoDescriptor
  access : AccessFlags
deriving DecidableEq

namespace MethodSpec

def params (spec : MethodSpec) : List TypeDescriptor := spec.proto.params

def returns (spec : MethodSpec) : TypeDescriptor := spec.proto.returns

def signature (spec : MethodSpec) : String := spec.name ++ spec.proto.text

def inspect (spec : MethodSpec) : String :=
  "MethodSpec(" ++ spec.access.text ++ " " ++ spec.signature ++ ")"

def isConstructor (spec : MethodSpec) : Bool := spec.name == Name.constructor

end MethodSpec

end DexForge
