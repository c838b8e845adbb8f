import DexForge.Proofs.Pool.Finishing
import DexForge.Proofs.Synthesis.Outline

/-! # Faults of descriptions

A class is built with faults of its description only; no slot is ever looked up that is not there.
-/
set_option autoImplicit false

namespace DexForge

open DexForge.Except

/-- The fault is not that of a slot outside the tables. -/
def SynthesisError.Proper (e : SynthesisError) : Prop := ∀ t position, e ≠ .dangling t position

namespace SynthesisError

theorem proper_encoding (fault : EncodingFault) : (SynthesisError.encoding fault).Proper :=
  fun _ _ h => by cases h

theorem proper_unsupportedSignature (method : String) (fault : SignatureFault) :
    (SynthesisError.unsupportedSignature method fault).Proper :=
  fun _ _ h => by cases h

theorem proper_conflict (subject : String) (fault : ConflictFault) :
    (SynthesisError.conflict subject fault).Proper :=
  fun _ _ h => by cases h

theorem proper_arithmeticOverflow : SynthesisError.arithmeticOverflow.Proper :=
  fun _ _ h => by cases h

theorem LongText.proper {e : SynthesisError} (h : e.LongText) : e.Proper := by
  obtain ⟨units, rfl⟩ := h
  exact proper_encoding _

theorem Late.proper {e : SynthesisError} (h : e.Late) : e.Proper := by
  cases h <;> exact fun _ _ h => by cases h

end SynthesisError

open SynthesisError

namespace MethodDescription

theorem fails_spec (m : MethodDescription) : Fails Proper m.spec := by
  unfold spec
  split
  · exact fails_error (proper_unsupportedSignature _ _)
  · refine (fails_mapM ?_).bind ?_
    · rintro ⟨text, position⟩ -
      dsimp only [param]
      split
      · exact fails_error (proper_unsupportedSignature _ _)
      · split
        · exact fails_error (proper_unsupportedSignature _ _)
        · exact fails_ok
    · intro params _
      split
      · exact fails_error (proper_unsupportedSignature _ _)
      · exact fails_ok

end MethodDescription

namespace ClassDescription

theorem fails_specs (d : ClassDescription) : Fails Proper d.specs := by
  refine fails_mapM fun m _ => ?_
  refine m.fails_spec.bind fun spec _ => ?_
  split
  · exact fails_error (proper_conflict _ _)
  · exact fails_ok

end ClassDescription

namespace HandlerBinding

theorem fails_handlerClass (b : HandlerBinding) : Fails Proper b.handlerClass := by
  intro e hError
  obtain ⟨fault, rfl⟩ := encoding_of_handlerClass hError
  exact proper_encoding fault

end HandlerBinding

namespace Delegation

variable (ctx : Context)

theorem fails_body (spec : MethodSpec) (ordinal : Nat) :
    Fails Proper (Delegation.body ctx spec ordinal) := by
  intro e hError
  have hMade := made_body ctx spec ordinal
  rw [hError] at hMade
  cases hMade with
  | voidParameter _ _ _ | registers _ _ _ => exact proper_unsupportedSignature _ _
  | overflow _ => exact proper_arithmeticOverflow
  | ordinal _ _ | handler _ _ _ => exact proper_encoding _

theorem fails_constructorBody (superclass : String) :
    Fails Proper (constructorBody ctx superclass) := by
  unfold constructorBody
  split
  · next e hHandler => exact fails_error (ctx.binding.fails_handlerClass e hHandler)
  · exact fails_ok

theorem fails_checkDistinct (interfaces : List String) (specs : List MethodSpec) :
    Fails Proper (checkDistinct ctx interfaces specs) := by
  unfold checkDistinct
  split
  · exact fails_error (proper_conflict _ _)
  · split
    · exact fails_error (proper_conflict _ _)
    · exact fails_ok

end Delegation

namespace Recipe

variable {α β : Type}

def Proper (c : Recipe α) : Prop := Fails SynthesisError.Proper c.outcome

theorem Proper.bind {c : Recipe α} {f : α → Recipe β} (h : c.Proper) (hNext : ∀ a, (f a).Proper) :
    (c >>= f).Proper := by
  rw [Proper, outcome_bind]
  exact Fails.bind h fun a _ => hNext a

theorem proper_pure (a : α) : (pure a : Recipe α).Proper := fails_ok

theorem proper_forM {ι : Type} {f : ι → Recipe Unit} {xs : List ι} (h : ∀ x ∈ xs, (f x).Proper) :
    (xs.forM f).Proper := by
  rw [Proper, outcome_forM]
  exact fails_forM h

theorem proper_request {t : TableName} (r : Request t) : (request r).Proper :=
  fun e hError => (fails_request r e hError).proper

end Recipe

theorem MethodBody.proper_recipe (body : MethodBody Request) : body.recipe.Proper :=
  fun e hError => (body.fails_recipe e hError).proper

namespace ProxyClass

theorem fails_checkClass (owner : String) (role : ClassRole) (text : String) :
    Fails Proper (checkClass owner role text) := by
  unfold checkClass
  split
  · exact fails_error (proper_encoding _)
  · split
    · exact fails_ok
    · exact fails_error (proper_encoding _)

theorem fails_checkFields (binding : HandlerBinding) : Fails Proper (checkFields binding) := by
  unfold checkFields
  split
  · exact fails_error (proper_encoding _)
  · split
    · split
      · exact fails_ok
      · exact fails_error (proper_encoding _)
    · exact fails_ok

theorem fails_plan (binding : HandlerBinding) (d : ClassDescription) :
    Fails Proper (plan binding d) :=
  (fails_checkClass _ _ _).bind fun _ _ => (fails_checkClass _ _ _).bind fun _ _ =>
    (fails_forM fun _ _ => fails_checkClass _ _ _).bind fun _ _ =>
      (fails_checkFields binding).bind fun _ _ => d.fails_specs

theorem proper_assembly (binding : HandlerBinding) (d : ClassDescription)
    (specs : List MethodSpec) : (assembly binding d specs).Proper := by
  have hDistinct : (Recipe.ofExcept (Delegation.checkDistinct ⟨d.name, binding⟩ d.interfaces
      specs)).Proper := Delegation.fails_checkDistinct _ _ _
  exact hDistinct.bind fun _ => (Recipe.proper_request _).bind fun _ =>
    (Recipe.proper_request _).bind fun _ =>
      (Recipe.proper_forM fun _ _ => Recipe.proper_request _).bind fun _ =>
        (Recipe.proper_forM fun _ _ => Recipe.proper_request _).bind fun _ =>
          Recipe.proper_request _

theorem proper_requests (binding : HandlerBinding) (d : ClassDescription) :
    (requests binding d).Proper := by
  have hPlan : (Recipe.ofExcept (plan binding d)).Proper := fails_plan binding d
  refine hPlan.bind fun specs => ?_
  have hConstructor : (Recipe.ofExcept
      (Delegation.constructorBody ⟨d.name, binding⟩ d.superclass)).Proper :=
    Delegation.fails_constructorBody _ _
  refine hConstructor.bind fun constructor => constructor.proper_recipe.bind fun _ => ?_
  refine (Recipe.proper_forM ?_).bind fun _ => (proper_assembly binding d _).bind fun _ =>
    Recipe.proper_forM fun _ _ => Recipe.proper_request _
  rintro ⟨spec, ordinal⟩ -
  have hBody : (Recipe.ofExcept (Delegation.body ⟨d.name, binding⟩ spec ordinal)).Proper :=
    Delegation.fails_body _ _ _
  exact hBody.bind fun body => body.proper_recipe

/-- Building a class never fails for a slot that is not there. -/
theorem proper_recipe (binding : HandlerBinding) (d : ClassDescription) :
    (recipe binding d).Proper :=
  (proper_requests binding d).bind fun _ => Recipe.proper_pure d

end ProxyClass

end DexForge
