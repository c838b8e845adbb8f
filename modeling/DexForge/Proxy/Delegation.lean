import DexForge.Proxy.HandlerBinding
import DexForge.Proxy.Operation

/-! # Delegating methods

Every proxied method loads the handler and its own identity, packs its arguments into an array,
calls the handler and converts the result to the declared type. Register 0 holds the handler and
later the result, 1 the identity, 2 the array, 3 a size or an index and 4 a boxed argument; the
proxy itself is in 5 and the parameters follow.
-/
set_option autoImplicit false

namespace DexForge.Delegation

def resultRegister : UInt8 := 0
def identityRegister : UInt8 := 1
def arrayRegister : UInt8 := 2
def scratchRegister : UInt8 := 3
def boxedRegister : UInt8 := 4
def selfRegister : UInt8 := 5

/-- Registers in front of the proxy and its parameters. -/
def temporaries : UInt32 := 5

structure Context where
  owner : String
  binding : HandlerBinding

namespace Context

def handlerField (ctx : Context) (handler : ClassName) : Request .field :=
  .field ctx.owner ctx.binding.field handler.text

def methodArrayField (ctx : Context) (name : String) : Request .field :=
  .field ctx.owner name MethodIdentity.arrayType.text

end Context

def loadIdentity (ctx : Context) (spec : MethodSpec) (ordinal : Nat) : List (Operation Request) :=
  match ctx.binding.identity with
  | .methodArray field =>
    [.sgetObject identityRegister (ctx.methodArrayField field),
     .const scratchRegister (Int32.ofNat ordinal),
     .agetObject identityRegister identityRegister scratchRegister]
  | .index => [.const identityRegister (Int32.ofNat ordinal)]
  | .name => [.constString identityRegister (.string spec.signature)]

def newArguments (count : Nat) : List (Operation Request) :=
  [.const scratchRegister (Int32.ofNat count),
   .newArray arrayRegister scratchRegister (.type TypeDescriptor.objectArray.text)]

def boxProto (p : Primitive) : ProtoDescriptor :=
  ⟨.ofClass p.wrapper, [.ofPrimitive p]⟩

def unboxProto (p : Primitive) : ProtoDescriptor :=
  ⟨.ofPrimitive p, []⟩

def store (src : UInt8) : Operation Request :=
  .aputObject src arrayRegister scratchRegister

def packArgument (position : Nat) (reg : UInt16) (type : TypeDescriptor) :
    List (Operation Request) :=
  .const scratchRegister (Int32.ofNat position) ::
    match type.primitive? with
    | some p =>
      [.invoke .static (.method p.wrapper.text Primitive.boxer (boxProto p))
        (if p.isWide then [reg, reg + 1] else [reg]),
       .moveResultObject boxedRegister,
       store boxedRegister]
    | none =>
      if reg < 256 then [store reg.toUInt8]
      else [.moveObject boxedRegister reg, store boxedRegister]

/-- Parameters packed so far and where the next one starts. -/
structure Packing where
  position : Nat
  register : UInt16
  code : Array (Operation Request)

def Packing.start : Packing := ⟨0, selfRegister.toUInt16 + 1, #[]⟩

def Packing.add (packing : Packing) (type : TypeDescriptor) : Packing where
  position := packing.position + 1
  register := packing.register + UInt16.ofNat type.width
  code := packing.code ++ packArgument packing.position packing.register type

def packArguments (params : List TypeDescriptor) : List (Operation Request) :=
  (params.foldl Packing.add .start).code.toList

def callHandler (binding : HandlerBinding) : Operation Request :=
  .invoke binding.invokeKind (.method binding.handler binding.invokeName binding.invokeProto)
    [resultRegister.toUInt16, selfRegister.toUInt16, identityRegister.toUInt16,
     arrayRegister.toUInt16]

def giveBack (type : TypeDescriptor) : List (Operation Request) :=
  if type.isVoid then [.returnVoid]
  else .moveResultObject resultRegister ::
    match type.primitive? with
    | none =>
      [.checkCast resultRegister (.type type.text), .returnObject resultRegister]
    | some p =>
      [.checkCast resultRegister (.type p.wrapper.text),
       .invoke .virtual (.method p.wrapper.text p.unboxer (unboxProto p))
         [resultRegister.toUInt16]] ++
      if p.isWide then [.moveResultWide resultRegister, .returnWide resultRegister]
      else [.moveResult resultRegister, .returnValue resultRegister]

/-- Registers of the frame that holds the proxy and the parameters, counted in 32 bits. -/
def frameRegisters? (proto : ProtoDescriptor) : Option UInt32 := do
  Arithmetic.checked.add32 (temporaries + 1) (← proto.paramRegisters?)

/-- The body of a proxied method, `ordinal` being its position among the proxied methods. -/
def body (ctx : Context) (spec : MethodSpec) (ordinal : Nat) :
    Except SynthesisError (MethodBody Request) :=
  match spec.params.findIdx? TypeDescriptor.isVoid with
  | some position => .error (.unsupportedSignature spec.signature (.voidParameter position))
  | none =>
    match frameRegisters? spec.proto with
    | none => .error .arithmeticOverflow
    | some registers =>
      if 65536 ≤ registers then .error (.unsupportedSignature spec.signature .registers)
      else if 0x80000000 ≤ ordinal then .error (.encoding (.ordinal ordinal))
      else
        match ctx.binding.handlerClass with
        | .error e => .error e
        | .ok handler =>
          .ok
            { spec
              method := .method ctx.owner spec.name spec.proto
              registers := registers.toUInt16
              ins := registers.toUInt16 - temporaries.toUInt16
              outs := 4
              code :=
                .igetObject resultRegister selfRegister (ctx.handlerField handler) ::
                  loadIdentity ctx spec ordinal ++ newArguments spec.params.length ++
                  packArguments spec.params ++ callHandler ctx.binding :: giveBack spec.returns }

def encode (ctx : Context) (spec : MethodSpec) (ordinal : Nat) : Script (MethodBody Slot) := do
  MethodBody.intern (← Script.ofExcept (body ctx spec ordinal))

def constructorAccess : AccessFlags := .isPublic ||| .isConstructor

/-- The constructor calls that of the superclass and keeps the handler it is given. -/
def constructorBody (ctx : Context) (superclass : String) :
    Except SynthesisError (MethodBody Request) :=
  match ctx.binding.handlerClass with
  | .error e => .error e
  | .ok handler =>
    let name := Name.constructor
    let proto : ProtoDescriptor := ⟨.void, [.ofClass handler]⟩
    .ok
      { spec := ⟨name, proto, constructorAccess⟩
        method := .method ctx.owner name proto
        registers := 2
        ins := 2
        outs := 1
        code :=
          [.invoke .direct (.method superclass name ⟨.void, []⟩) [0],
           .iputObject 1 0 (ctx.handlerField handler),
           .returnVoid] }

end DexForge.Delegation
