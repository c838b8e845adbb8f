import DexForge.Proofs.Pool.Contents

/-! # What a request collects

A request adds the parts of its entry one by one and stops at the first text that is too long. What
it leaves behind, and whether it fails, depends on the request alone.
-/
set_option autoImplicit false

namespace DexForge

namespace Pools

def Item.fault? : Item → Option SynthesisError
  | ⟨.string, text⟩ =>
    if maxStringUnits < Utf16.length text then
      some (.encoding (.longString (Utf16.length text)))
    else none
  | _ => none

def fault? (items : List Item) : Option SynthesisError := items.findSome? Item.fault?

def collected (items : List Item) : List Item := items.takeWhile fun item => item.fault?.isNone

theorem fault?_append (items items' : List Item) :
    fault? (items ++ items') = (fault? items).or (fault? items') := by
  rw [fault?, List.findSome?_append]
  rfl

theorem collected_append_of_none {items : List Item} (h : fault? items = none)
    (items' : List Item) : collected (items ++ items') = items ++ collected items' := by
  rw [collected, List.takeWhile_append_of_pos]
  · rfl
  · intro item hItem
    rw [fault?, List.findSome?_eq_none_iff] at h
    rw [h item hItem]
    rfl

theorem collected_of_fault?_none {items : List Item} (h : fault? items = none) :
    collected items = items := by
  have hAppend := collected_append_of_none h []
  rwa [List.append_nil, collected, collected, List.takeWhile_nil, List.append_nil] at hAppend

theorem collected_append_of_some {items : List Item} {e : SynthesisError}
    (h : fault? items = some e) (items' : List Item) :
    collected (items ++ items') = collected items := by
  induction items with
  | nil => cases h
  | cons item items ih =>
    rw [collected, collected, List.cons_append, List.takeWhile_cons, List.takeWhile_cons]
    cases hItem : item.fault? with
    | none =>
      rw [fault?, List.findSome?_cons, hItem] at h
      have hRest := ih h
      rw [collected, collected] at hRest
      simp only [Option.isNone_none, if_true, hRest]
    | some _ => simp

end Pools

namespace Interning

open Pools

variable {α β : Type} {p : Pools} {m : Interning α} {f : α → Interning β} {items items' : List Item}
  {post : Pools → α → Prop} {post' : Pools → β → Prop}

/-- On the pools `p`, the action collects `items` and, unless one of them has a fault, gives a
result with the property `post`. -/
structure Interns (p : Pools) (m : Interning α) (items : List Item) (post : Pools → α → Prop) :
    Prop where
  extended : p.Extends (m.run p).2
  wellFormed : (m.run p).2.WellFormed
  holds : ∀ item, (m.run p).2.Holds item ↔ p.Holds item ∨ item ∈ collected items
  success : fault? items = none → ∃ a, (m.run p).1 = .ok a ∧ post (m.run p).2 a
  failure : ∀ e, fault? items = some e → (m.run p).1 = .error e

theorem Interns.fault?_eq_none (h : Interns p m items post) {a : α} (hOk : (m.run p).1 = .ok a) :
    fault? items = none := by
  cases hFault : fault? items with
  | none => rfl
  | some e =>
    rw [h.failure e hFault] at hOk
    cases hOk

theorem run_bind_of_ok {a : α} (h : (m.run p).1 = .ok a) :
    (m >>= f).run p = (f a).run (m.run p).2 := by
  change (ExceptT.bindCont f (m.run p).1) (m.run p).2 = _
  rw [h]
  rfl

theorem run_bind_of_error {e : SynthesisError} (h : (m.run p).1 = .error e) :
    (m >>= f).run p = (.error e, (m.run p).2) := by
  change (ExceptT.bindCont f (m.run p).1) (m.run p).2 = _
  rw [h]
  rfl

theorem Interns.bind (h : Interns p m items post)
    (hNext : ∀ p' a, p.Extends p' → p'.WellFormed → post p' a → Interns p' (f a) items' post') :
    Interns p (m >>= f) (items ++ items') post' := by
  cases hFault : fault? items with
  | none =>
    obtain ⟨a, hOk, hPost⟩ := h.success hFault
    have hRun : (m >>= f).run p = (f a).run (m.run p).2 := run_bind_of_ok hOk
    have hSecond := hNext _ a h.extended h.wellFormed hPost
    have hRest : fault? (items ++ items') = fault? items' := by
      rw [fault?_append, hFault, Option.none_or]
    refine ⟨?_, ?_, ?_, ?_, ?_⟩
    · rw [hRun]
      exact h.extended.trans hSecond.extended
    · rw [hRun]
      exact hSecond.wellFormed
    · intro item
      rw [hRun, hSecond.holds, h.holds, collected_append_of_none hFault,
        collected_of_fault?_none hFault, List.mem_append, or_assoc]
    · rw [hRun, hRest]
      exact hSecond.success
    · rw [hRun, hRest]
      exact hSecond.failure
  | some e =>
    have hRun : (m >>= f).run p = (.error e, (m.run p).2) := run_bind_of_error (h.failure e hFault)
    have hFirst : fault? (items ++ items') = some e := by
      rw [fault?_append, hFault, Option.some_or]
    refine ⟨?_, ?_, ?_, ?_, ?_⟩
    · rw [hRun]
      exact h.extended
    · rw [hRun]
      exact h.wellFormed
    · intro item
      rw [hRun, h.holds, collected_append_of_some hFault]
    · intro hNone
      rw [hFirst] at hNone
      cases hNone
    · intro e' he'
      rw [hFirst, Option.some.injEq] at he'
      rw [hRun, he']

theorem interns_pure (hp : p.WellFormed) {a : α} (ha : post p a) :
    Interns p (pure a) [] post where
  extended := .refl p
  wellFormed := hp
  holds item := by simp [collected]; rfl
  success _ := ⟨a, rfl, ha⟩
  failure e he := by cases he

theorem interns_mapM {γ : Type} {g : γ → Interning α} {parts : γ → List Item}
    {Q : γ → Pools → α → Prop} (hp : p.WellFormed) {xs : List γ}
    (hMono : ∀ x p p' a, p.Extends p' → Q x p a → Q x p' a)
    (hStep : ∀ x p', p'.WellFormed → Interns p' (g x) (parts x) (Q x)) :
    Interns p (xs.mapM g) (xs.flatMap parts)
      (fun p' as => List.Forall₂ (fun x a => Q x p' a) xs as) := by
  induction xs generalizing p with
  | nil => exact interns_pure hp .nil
  | cons x xs ih =>
    rw [List.mapM_cons, List.flatMap_cons]
    refine (hStep x p hp).bind ?_
    intro p' a _ hp' ha
    rw [← List.append_nil (xs.flatMap parts)]
    refine (ih hp').bind ?_
    intro p'' as hExtends hp'' has
    exact interns_pure hp'' (.cons (hMono x p' p'' a hExtends ha) has)

/-- An entry is added when what it refers to is there. -/
theorem interns_add (hp : p.WellFormed) {t : TableName} {entry : Entry t} {x : Contents t}
    (hx : p.resolve? entry = some x) (hFault : Item.fault? ⟨t, x⟩ = none)
    (hValid : Item.Valid ⟨t, x⟩) :
    Interns p (modifyGet (Pools.add entry)) [⟨t, x⟩]
      (fun p' slot => p'.contents? slot = some x) := by
  have hItems : fault? [(⟨t, x⟩ : Item)] = none := by
    rw [fault?, List.findSome?_cons, hFault]
    rfl
  obtain ⟨hWellFormed, hHolds⟩ := hp.add hx hValid
  refine ⟨extends_add p entry, hWellFormed, ?_, fun _ => ⟨_, rfl, contents?_add hx⟩, ?_⟩
  · intro item
    rw [collected_of_fault?_none hItems, List.mem_singleton]
    exact hHolds item
  · intro e he
    rw [hItems] at he
    cases he

theorem Interns.congr (h : Interns p m items post) {m' : Interning α} (hRun : m'.run p = m.run p) :
    Interns p m' items post :=
  ⟨hRun ▸ h.extended, hRun ▸ h.wellFormed, hRun ▸ h.holds, hRun ▸ h.success, hRun ▸ h.failure⟩

theorem addString_of_short {text : String} (h : Utf16.length text ≤ maxStringUnits) (p : Pools) :
    Pools.addString text p =
      (.ok (Pools.add (t := .string) text p).1, (Pools.add (t := .string) text p).2) := by
  rw [Pools.addString]
  cases hFind : p.strings.find? text with
  | some i =>
    have hEntry : p.entryAt? (⟨i⟩ : Slot .string) = some text :=
      (p.strings.find?_eq_some_iff text i).mp hFind
    rw [add_of_entryAt? hEntry]
  | none => simp only [if_neg (Nat.not_lt.mpr h)]

theorem addString_of_long {text : String} (h : maxStringUnits < Utf16.length text) {p : Pools}
    (hp : p.WellFormed) :
    Pools.addString text p = (.error (.encoding (.longString (Utf16.length text))), p) := by
  rw [Pools.addString]
  cases hFind : p.strings.find? text with
  | some i =>
    have hText : p.Holds ⟨.string, text⟩ := ⟨⟨i⟩, (p.strings.find?_eq_some_iff text i).mp hFind⟩
    exact absurd (hp.valid _ hText) (Nat.not_le.mpr h)
  | none => simp only [if_pos h]

theorem interns_string (hp : p.WellFormed) (text : String) :
    Interns p (string text) [⟨.string, text⟩] (fun p' slot => p'.contents? slot = some text) := by
  have hRun : (string text).run p = Pools.addString text p := rfl
  by_cases hLong : maxStringUnits < Utf16.length text
  · rw [addString_of_long hLong hp] at hRun
    have hFault : Item.fault? ⟨.string, text⟩ =
        some (.encoding (.longString (Utf16.length text))) := by
      simp only [Item.fault?, if_pos hLong]
    have hItems : fault? [(⟨.string, text⟩ : Item)] =
        some (.encoding (.longString (Utf16.length text))) := by
      rw [fault?, List.findSome?_cons, hFault]
    refine ⟨?_, ?_, ?_, ?_, ?_⟩
    · rw [hRun]
      exact .refl p
    · rw [hRun]
      exact hp
    · intro item
      rw [hRun]
      simp [collected, hFault]
    · intro hNone
      rw [hItems] at hNone
      cases hNone
    · intro e he
      rw [hItems, Option.some.injEq] at he
      rw [hRun, he]
  · have hShort := Nat.not_lt.mp hLong
    rw [addString_of_short hShort] at hRun
    have hFault : Item.fault? ⟨.string, text⟩ = none := by
      simp only [Item.fault?, if_neg hLong]
    exact (interns_add (t := .string) hp rfl hFault hShort).congr hRun

end Interning

namespace Request

open Pools Interning

def typeParts (descriptor : String) : List Item :=
  [⟨.string, descriptor⟩] ++ [⟨.type, descriptor⟩]

def protoParts (descriptor : ProtoDescriptor) : List Item :=
  [⟨.string, descriptor.shorty⟩] ++ (typeParts descriptor.returns.text ++
    (descriptor.params.flatMap (fun param => typeParts param.text) ++
      [⟨.proto, descriptor.texts⟩]))

def memberParts (owner name : String) (descriptor : List Item) : List Item :=
  typeParts owner ++ ([⟨.string, name⟩] ++ descriptor)

def parts : {t : TableName} → Request t → List Item
  | _, string text => [⟨.string, text⟩]
  | _, type descriptor => typeParts descriptor
  | _, proto descriptor => protoParts descriptor
  | _, field owner name fieldType =>
    memberParts owner name (typeParts fieldType) ++ [⟨.field, ⟨owner, name, fieldType⟩⟩]
  | _, method owner name descriptor =>
    memberParts owner name (protoParts descriptor) ++ [⟨.method, ⟨owner, name, descriptor.texts⟩⟩]

variable {p : Pools}

theorem interns_type (hp : p.WellFormed) (descriptor : String) :
    Interns p (Interning.type descriptor) (typeParts descriptor)
      (fun p' slot => p'.contents? slot = some descriptor) := by
  refine (interns_string hp descriptor).bind ?_
  intro p' name _ hp' hName
  exact interns_add hp' hName rfl trivial

theorem interns_proto (hp : p.WellFormed) (descriptor : ProtoDescriptor) :
    Interns p (Interning.proto descriptor) (protoParts descriptor)
      (fun p' slot => p'.contents? slot = some descriptor.texts) := by
  refine (interns_string hp descriptor.shorty).bind ?_
  intro p₁ shorty _ hp₁ hShorty
  refine (interns_type hp₁ descriptor.returns.text).bind ?_
  intro p₂ returns h₂ hp₂ hReturns
  refine (interns_mapM
    (Q := fun param p' slot => p'.contents? slot = some (param : TypeDescriptor).text) hp₂
    (fun _ _ _ _ hExtends => hExtends.contents?)
    (fun param _ hp' => interns_type hp' param.text)).bind ?_
  intro p₃ params h₃ hp₃ hParams
  have hKey : p₃.keyTexts? ⟨shorty, returns, params⟩ = some descriptor.texts :=
    keyTexts?_eq_some_iff.mpr ⟨(h₂.trans h₃).contents? hShorty, h₃.contents? hReturns,
      List.forall₂_map_right_iff.mpr hParams.flip⟩
  exact interns_add hp₃ hKey rfl ⟨descriptor, rfl⟩

theorem interns_memberKey (hp : p.WellFormed) (owner name : String) {t : TableName}
    {descriptor : Interning (Slot t)} {items : List Item} {x : Contents t}
    (hDescriptor : ∀ p', p'.WellFormed →
      Interns p' descriptor items (fun p'' slot => p''.contents? slot = some x)) :
    Interns p (memberKey owner name descriptor) (memberParts owner name items)
      (fun p' key => p'.memberTexts? p'.contents? key = some ⟨owner, name, x⟩) := by
  refine (interns_type hp owner).bind ?_
  intro p₁ ownerSlot _ hp₁ hOwner
  refine (interns_string hp₁ name).bind ?_
  intro p₂ nameSlot h₂ hp₂ hName
  rw [← List.append_nil items]
  refine (hDescriptor p₂ hp₂).bind ?_
  intro p₃ slot h₃ hp₃ hSlot
  exact interns_pure hp₃ (memberTexts?_eq_some_iff.mpr
    ⟨(h₂.trans h₃).contents? hOwner, h₃.contents? hName, hSlot⟩)

/-- A request collects its parts; when none of them has a fault it gives a slot that denotes what
was asked for. -/
theorem interns_intern (hp : p.WellFormed) {t : TableName} (r : Request t) :
    Interns p r.intern r.parts (fun p' slot => p'.contents? slot = some r.contents) := by
  cases r with
  | string text => exact interns_string hp text
  | type descriptor => exact interns_type hp descriptor
  | proto descriptor => exact interns_proto hp descriptor
  | field owner name fieldType =>
    refine (interns_memberKey hp owner name fun p' hp' => interns_type hp' fieldType).bind ?_
    intro p' key _ hp' hKey
    exact interns_add hp' hKey rfl trivial
  | method owner name descriptor =>
    refine (interns_memberKey hp owner name fun p' hp' => interns_proto hp' descriptor).bind ?_
    intro p' key _ hp' hKey
    exact interns_add hp' hKey rfl trivial

end Request

end DexForge
