import DexForge.Arithmetic
import DexForge.Descriptor.TypeDescriptor

/-! # Method prototypes

A prototype is written as its parameters in parentheses followed by the return type.
-/
set_option autoImplicit false

namespace DexForge

/-- Return type and parameters. A `void` parameter can be represented, so that a caller that
refuses it can name the method; `ProtoDescriptor.parse` never produces one. -/
structure ProtoDescriptor where
  returns : TypeDescriptor
  params : List TypeDescriptor
deriving DecidableEq, Hashable

namespace ProtoDescriptor

def text (p : ProtoDescriptor) : String :=
  "(" ++ String.join (p.params.map TypeDescriptor.text) ++ ")" ++ p.returns.text

/-- Cuts the first field descriptor off a parameter list: brackets, then a class name through its
semicolon or a single character. -/
def takeField (cs : List Char) : Option (List Char × List Char) :=
  let brackets := cs.takeWhile (· == '[')
  match cs.drop brackets.length with
  | [] => none
  | 'L' :: rest =>
    let name := rest.takeWhile (· != ';')
    match rest.drop name.length with
    | [] => none
    | semicolon :: tail => some (brackets ++ 'L' :: name ++ [semicolon], tail)
  | c :: tail => some (brackets ++ [c], tail)

theorem length_lt_of_takeField {cs field rest : List Char}
    (h : takeField cs = some (field, rest)) : rest.length < cs.length := by
  unfold takeField at h
  have hDrop : ∀ n, (cs.drop n).length ≤ cs.length := fun n => by simp
  generalize hBrackets : (cs.takeWhile (· == '[')) = brackets at h
  have hLength := hDrop brackets.length
  simp only at h
  split at h
  · cases h
  · next tail hTail =>
    rw [hTail] at hLength
    split at h
    · cases h
    · next semicolon last hLast =>
      have hShorter : (tail.drop (tail.takeWhile (· != ';')).length).length ≤ tail.length := by
        simp
      rw [hLast] at hShorter
      simp only [Option.some.injEq, Prod.mk.injEq] at h
      obtain ⟨-, rfl⟩ := h
      simp only [List.length_cons] at hLength hShorter
      omega
  · next c tail _ hTail =>
    rw [hTail] at hLength
    simp only [Option.some.injEq, Prod.mk.injEq] at h
    obtain ⟨-, rfl⟩ := h
    simp only [List.length_cons] at hLength
    omega

/-- Reads field descriptors until the text ends; `none` when one of them is not a value type. -/
def parseFields (cs : List Char) (read : Array TypeDescriptor) : Option (Array TypeDescriptor) :=
  if cs.isEmpty then some read
  else match h : takeField cs with
    | none => none
    | some (field, rest) =>
      have := length_lt_of_takeField h
      match TypeDescriptor.parse (String.ofList field) with
      | .ok .void => none
      | .ok type => parseFields rest (read.push type)
      | .error _ => none
termination_by cs.length

def parseBody (cs : List Char) : Option ProtoDescriptor :=
  let inside := cs.takeWhile (· != ')')
  match cs.drop inside.length with
  | [] => none
  | _ :: outside =>
    match parseFields inside #[], TypeDescriptor.parse (String.ofList outside) with
    | some params, .ok returns => some ⟨returns, params.toList⟩
    | _, _ => none

def parse (text : String) : Except DescriptorError ProtoDescriptor :=
  match text.toList with
  | '(' :: rest =>
    match parseBody rest with
    | some proto => .ok proto
    | none => .error (.invalidMethod text)
  | _ => .error (.invalidMethod text)

def shorty (p : ProtoDescriptor) : String :=
  String.ofList (p.returns.shorty :: p.params.map TypeDescriptor.shorty)

/-- Registers that the parameters take, counted in 32 bits. -/
def paramRegisters? (p : ProtoDescriptor) : Option UInt32 :=
  Arithmetic.checked.sum32 (p.params.map fun type => UInt32.ofNat type.width)

def inspect (p : ProtoDescriptor) : String := s!"ProtoDescriptor({p.text})"

instance : Ord ProtoDescriptor :=
  ⟨fun a b => (compare a.returns b.returns).then (compare a.params b.params)⟩

end ProtoDescriptor

end DexForge
