import DexForge.Description.Specs
import DexForge.Proxy.ClassDefinition

/-! # The proxy class of a description -/
set_option autoImplicit false

namespace DexForge.ProxyClass

/-- A class is named by a class descriptor without dimensions. -/
def checkClass (owner : String) (role : ClassRole) (text : String) : Except SynthesisError Unit :=
  match TypeDescriptor.parse text with
  | .error cause => .error (.encoding (.badClass owner role cause))
  | .ok type =>
    match type.className? with
    | some _ => .ok ()
    | none => .error (.encoding (.notClass owner role text))

def checkFields (binding : HandlerBinding) : Except SynthesisError Unit :=
  if !Name.isSimple binding.field then .error (.encoding (.handlerField binding.field))
  else match binding.identity with
    | .methodArray field =>
      if Name.isSimple field then .ok () else .error (.encoding (.methodArrayField field))
    | _ => .ok ()

def plan (binding : HandlerBinding) (d : ClassDescription) :
    Except SynthesisError (List MethodSpec) := do
  checkClass d.name .className d.name
  checkClass d.name .superclass d.superclass
  d.interfaces.forM (checkClass d.name .interface)
  checkFields binding
  d.specs

/-- Writes the bodies, the constructor's first, and puts the class together. -/
def build (binding : HandlerBinding) (d : ClassDescription) : Script ClassDefinition := do
  let specs ← Script.ofExcept (plan binding d)
  let ctx : Delegation.Context := ⟨d.name, binding⟩
  let constructor ←
    MethodBody.intern (← Script.ofExcept (Delegation.constructorBody ctx d.superclass))
  let proxied ← specs.zipIdx.mapM fun (spec, ordinal) => Delegation.encode ctx spec ordinal
  let definition ← Delegation.assemble ctx d.superclass d.interfaces (constructor :: proxied)
  let sourceFile ← d.sourceFile.mapM fun file => Script.request (.string file)
  return { definition with sourceFile }

end DexForge.ProxyClass
