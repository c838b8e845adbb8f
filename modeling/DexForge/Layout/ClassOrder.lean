import DexForge.Layout.LinkedClass

/-! # The order of class definitions

A class stands behind those of its supertypes that the same container defines. Of the classes that
may come next, the one that was given first does.
-/
set_option autoImplicit false

namespace DexForge.ClassOrder

def firstRedefinition? : (seen : List UInt16) → List LinkedClass → Option LinkedClass
  | _, [] => none
  | seen, c :: rest =>
    if seen.contains c.type then some c else firstRedefinition? (c.type :: seen) rest

def isReady (waiting : List LinkedClass) (c : LinkedClass) : Bool :=
  c.supertypes.all fun t => !waiting.any fun w => w.type == t

def place (waiting : List LinkedClass) : Except SynthesisError (List LinkedClass) :=
  match waiting with
  | [] => .ok []
  | first :: others =>
    match h : (first :: others).findIdx? (isReady (first :: others)) with
    | none => .error (.conflict first.descriptor .cycle)
    | some i =>
      have hBound : i < (first :: others).length := (List.findIdx?_eq_some_iff_getElem.mp h).1
      (place ((first :: others).eraseIdx i)).map ((first :: others)[i] :: ·)
termination_by waiting.length
decreasing_by
  rw [List.length_eraseIdx_of_lt hBound]
  simp

def arrange (classes : List LinkedClass) : Except SynthesisError (List LinkedClass) :=
  match firstRedefinition? [] classes with
  | some c => .error (.conflict c.descriptor .classTwice)
  | none => place classes

end DexForge.ClassOrder
