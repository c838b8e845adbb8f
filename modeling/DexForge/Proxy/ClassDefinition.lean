import DexForge.Proxy.Delegation

/-! # Class definitions

A class whose members are in pools, ready to be laid out.
-/
set_option autoImplicit false

namespace DexForge

structure FieldDefinition where
  field : Slot .field
  access : AccessFlags

structure MethodDefinition where
  access : AccessFlags
  body : MethodBody Slot

structure ClassDefinition where
  descriptor : String
  type : Slot .type
  access : AccessFlags
  superclass : Option (Slot .type)
  interfaces : List (Slot .type)
  sourceFile : Option (Slot .string)
  staticFields : List FieldDefinition
  instanceFields : List FieldDefinition
  directMethods : List MethodDefinition
  virtualMethods : List MethodDefinition

namespace ClassDefinition

def methods (c : ClassDefinition) : List MethodDefinition := c.directMethods ++ c.virtualMethods

def supertypes (c : ClassDefinition) : List (Slot .type) := c.superclass.toList ++ c.interfaces

end ClassDefinition

namespace Delegation

def classAccess : AccessFlags := .isPublic ||| .isFinal

def handlerFieldAccess : AccessFlags := .isPrivate ||| .isFinal

def methodArrayAccess : AccessFlags := .isPrivate ||| .isStatic

/-- An interface may be listed once, and a name and prototype declared once. -/
def checkDistinct (ctx : Context) (interfaces : List String) (specs : List MethodSpec) :
    Except SynthesisError Unit :=
  match firstRepeated? interfaces with
  | some interface =>
    .error (.conflict (ctx.owner ++ " implements " ++ interface) .interfaceTwice)
  | none =>
    match firstRepeated? (specs.map fun spec => (spec.name, spec.proto)) with
    | some (name, proto) =>
      .error (.conflict (ctx.owner ++ "->" ++ name ++ proto.text) .methodTwice)
    | none => .ok ()

/-- The static fields of a proxy: the array of its methods, where the handler wants one. -/
def staticFields (ctx : Context) : Script (List FieldDefinition) :=
  match ctx.binding.identity with
  | .methodArray field => do
    return [⟨← Script.request (ctx.methodArrayField field), methodArrayAccess⟩]
  | _ => return []

/-- Puts a constructor among the direct methods and all others among the virtual ones. -/
def assemble (ctx : Context) (superclass : String) (interfaces : List String)
    (methods : List (MethodBody Slot)) : Script ClassDefinition := do
  Script.ofExcept (checkDistinct ctx interfaces (methods.map MethodBody.spec))
  let type ← Script.request (.type ctx.owner)
  let superclass ← Script.request (.type superclass)
  let interfaces ← interfaces.mapM fun interface => Script.request (.type interface)
  let staticFields ← staticFields ctx
  let handler ← Script.request (.field ctx.owner ctx.binding.field ctx.binding.handler)
  let (constructors, proxied) := methods.partition fun body => body.spec.isConstructor
  return {
    descriptor := ctx.owner
    type
    access := classAccess
    superclass := some superclass
    interfaces
    sourceFile := none
    staticFields
    instanceFields := [⟨handler, handlerFieldAccess⟩]
    directMethods := constructors.map fun body => ⟨constructorAccess, body⟩
    virtualMethods := proxied.map fun body => ⟨body.spec.access.overriding, body⟩ }

end Delegation

end DexForge
