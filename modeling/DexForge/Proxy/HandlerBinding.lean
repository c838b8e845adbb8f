import DexForge.Descriptor.ProtoDescriptor
import DexForge.Instruction.Basic
import DexForge.Synthesis.Error

/-! # Handler bindings

Where a proxy keeps its handler, which method of the handler it calls, and what it passes to tell
the handler which method was called.
-/
set_option autoImplicit false

namespace DexForge

/-- An element of a static array of reflected methods, the declaration index, or the signature. -/
inductive MethodIdentity where
  | methodArray (field : String)
  | index
  | name
deriving DecidableEq, Repr

namespace MethodIdentity

def defaultArrayField : String := "$__methodArray"

def reflect : MethodIdentity := methodArray defaultArrayField

def type : MethodIdentity → TypeDescriptor
  | methodArray _ => .ofClass .reflectMethod
  | index => .ofPrimitive .int
  | name => .ofClass .string

def arrayType : TypeDescriptor := .field ⟨1, by decide⟩ (.object .reflectMethod)

end MethodIdentity

structure HandlerBinding where
  field : String
  handler : String
  isInterface : Bool
  invokeName : String
  identity : MethodIdentity
deriving DecidableEq, Repr

namespace HandlerBinding

def defaultField : String := "$__handler"

def invocationHandler : String := "Ljava/lang/reflect/InvocationHandler;"

def new (handler : String) (identity : MethodIdentity) : HandlerBinding where
  field := defaultField
  handler := handler
  isInterface := true
  invokeName := "invoke"
  identity := identity

def reflect : HandlerBinding := new invocationHandler .reflect

instance : Inhabited HandlerBinding := ⟨reflect⟩

/-- The prototype of the handler's method: the proxy, the identity and the boxed arguments give an
object. -/
def invokeProto (b : HandlerBinding) : ProtoDescriptor :=
  ⟨.object, [.object, b.identity.type, .objectArray]⟩

def invokeKind (b : HandlerBinding) : InvokeKind :=
  if b.isInterface then .interface else .virtual

def handlerClass (b : HandlerBinding) : Except SynthesisError ClassName :=
  match TypeDescriptor.parse b.handler with
  | .error cause => .error (.encoding (.badDescriptor cause))
  | .ok type =>
    match type.className? with
    | some name => .ok name
    | none => .error (.encoding (.handlerNotClass type.text))

end HandlerBinding

end DexForge
