import DexForge.Description.Basic
import DexForge.Name
import DexForge.Proxy.MethodSpec
import DexForge.Synthesis.Error

/-! # Methods that a proxy overrides

Static and private methods, constructors and class initializers cannot be overridden and are left
out. A final method cannot either, but asking for it is an error.
-/
set_option autoImplicit false

namespace DexForge

namespace MethodDescription

def isOverridable (m : MethodDescription) : Bool :=
  !(m.flags.intersects (.isStatic ||| .isPrivate) || m.name == Name.constructor ||
    m.name == Name.classInitializer)

/-- The method as its description spells it, whether or not the types are well formed. -/
def display (m : MethodDescription) : String :=
  m.name ++ "(" ++ String.join m.params ++ ")" ++ m.returns

def param (m : MethodDescription) (position : Nat) (text : String) :
    Except SynthesisError TypeDescriptor :=
  match TypeDescriptor.parse text with
  | .error cause => .error (.unsupportedSignature m.display (.parameter position cause))
  | .ok type =>
    if type.isVoid then .error (.unsupportedSignature m.display (.voidParameter position))
    else .ok type

def spec (m : MethodDescription) : Except SynthesisError MethodSpec :=
  if !Name.isSimple m.name then .error (.unsupportedSignature m.display .methodName)
  else do
    let params ← m.params.zipIdx.mapM fun (text, position) => m.param position text
    match TypeDescriptor.parse m.returns with
    | .error cause => .error (.unsupportedSignature m.display (.returnType cause))
    | .ok returns => .ok ⟨m.name, ⟨returns, params⟩, m.flags⟩

end MethodDescription

namespace ClassDescription

def overriddenSpec (d : ClassDescription) (m : MethodDescription) :
    Except SynthesisError MethodSpec := do
  let spec ← m.spec
  if m.flags.contains .isFinal then
    .error (.conflict (d.name ++ "->" ++ spec.signature) .finalMethod)
  else .ok spec

def specs (d : ClassDescription) : Except SynthesisError (List MethodSpec) :=
  (d.methods.filter MethodDescription.isOverridable).mapM d.overriddenSpec

end ClassDescription

end DexForge
