import DexForge.Pool.Tables
import DexForge.Proxy.ClassDefinition

/-! # Linked classes

A class whose members have their final indices; only the code of its methods is still to be lowered.
-/
set_option autoImplicit false

namespace DexForge

structure LinkedMethod where
  method : UInt16
  access : AccessFlags
  body : MethodBody Slot

structure LinkedClass where
  descriptor : String
  type : UInt16
  access : AccessFlags
  superclass : Option UInt16
  interfaces : List UInt16
  sourceFile : Option UInt32
  staticFields : List FieldEntry
  instanceFields : List FieldEntry
  directMethods : List LinkedMethod
  virtualMethods : List LinkedMethod

namespace LinkedClass

def supertypes (c : LinkedClass) : List UInt16 := c.superclass.toList ++ c.interfaces

end LinkedClass

namespace Tables

def linkField (tables : Tables) (f : FieldDefinition) : Except SynthesisError FieldEntry := do
  return ⟨(← tables.field f.field).toUInt32, f.access⟩

def linkMethod (tables : Tables) (m : MethodDefinition) : Except SynthesisError LinkedMethod := do
  return ⟨← tables.method m.body.method, m.access, m.body⟩

def link (tables : Tables) (c : ClassDefinition) : Except SynthesisError LinkedClass := do
  let type ← tables.type c.type
  let superclass ← c.superclass.mapM tables.type
  let interfaces ← c.interfaces.mapM tables.type
  let sourceFile ← c.sourceFile.mapM tables.string
  let staticFields ← c.staticFields.mapM tables.linkField
  let instanceFields ← c.instanceFields.mapM tables.linkField
  let directMethods ← c.directMethods.mapM tables.linkMethod
  let virtualMethods ← c.virtualMethods.mapM tables.linkMethod
  return { descriptor := c.descriptor, type, access := c.access, superclass, interfaces, sourceFile,
           staticFields, instanceFields, directMethods, virtualMethods }

end Tables

end DexForge
