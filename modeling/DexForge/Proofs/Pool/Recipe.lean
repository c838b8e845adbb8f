import DexForge.Pool.Script
import DexForge.Proofs.Control.Except
import DexForge.Proofs.Pool.Interning

/-! # Recipes

A recipe tells what a script collects and how it ends, without any slot. A script follows a recipe
when it does so in all pools, whatever others add to the pools between its requests.
-/
set_option autoImplicit false

namespace DexForge

open Pools

def SynthesisError.LongText (e : SynthesisError) : Prop := ∃ units, e = .encoding (.longString units)

structure Recipe (β : Type) where
  items : List Item
  outcome : Except SynthesisError β

namespace Recipe

variable {α β γ : Type}

/-- The second recipe is not begun when the first fails. -/
def bind (c : Recipe α) (f : α → Recipe β) : Recipe β :=
  match c.outcome with
  | .ok a => ⟨c.items ++ (f a).items, (f a).outcome⟩
  | .error e => ⟨c.items, .error e⟩

instance : Monad Recipe where
  pure a := ⟨[], .ok a⟩
  bind := bind

def ofExcept (x : Except SynthesisError α) : Recipe α := ⟨[], x⟩

def request {t : TableName} (r : Request t) : Recipe Unit where
  items := collected r.parts
  outcome := match fault? r.parts with
    | none => .ok ()
    | some e => .error e

theorem bind_of_ok {c : Recipe α} {a : α} (h : c.outcome = .ok a) (f : α → Recipe β) :
    (c >>= f) = ⟨c.items ++ (f a).items, (f a).outcome⟩ := by
  change bind c f = _
  rw [bind, h]

theorem bind_of_error {c : Recipe α} {e : SynthesisError} (h : c.outcome = .error e)
    (f : α → Recipe β) : (c >>= f) = ⟨c.items, .error e⟩ := by
  change bind c f = _
  rw [bind, h]

instance : LawfulMonad Recipe := LawfulMonad.mk' Recipe
  (fun c => by
    change bind c (fun a => ⟨[], .ok a⟩) = c
    obtain ⟨items, outcome⟩ := c
    cases outcome <;> simp [bind])
  (fun a f => by
    change bind ⟨[], .ok a⟩ f = f a
    simp [bind])
  (fun c f g => by
    change bind (bind c f) g = bind c fun a => bind (f a) g
    obtain ⟨items, outcome⟩ := c
    cases outcome with
    | error e => rfl
    | ok a =>
      simp only [bind]
      cases (f a).outcome <;> simp)

section Faults

open DexForge.Except

theorem outcome_bind (c : Recipe α) (f : α → Recipe β) :
    (c >>= f).outcome = c.outcome >>= fun a => (f a).outcome := by
  cases hOutcome : c.outcome with
  | ok a => rw [bind_of_ok hOutcome, ok_bind]
  | error e => rw [bind_of_error hOutcome, error_bind]

theorem outcome_forM {ι : Type} (f : ι → Recipe Unit) (xs : List ι) :
    (xs.forM f).outcome = xs.forM fun x => (f x).outcome := by
  induction xs with
  | nil => rfl
  | cons x xs ih =>
    have hFirst := outcome_bind (f x) fun _ => xs.forM f
    rw [ih] at hFirst
    exact hFirst

theorem fails_request {t : TableName} (r : Request t) :
    Fails SynthesisError.LongText (request r).outcome := by
  intro e hError
  simp only [request] at hError
  split at hError
  · cases hError
  · next fault hFault =>
    cases hError
    obtain ⟨⟨t, x⟩, -, hItem⟩ := List.exists_of_findSome?_eq_some hFault
    cases t with
    | string =>
      simp only [Item.fault?] at hItem
      split at hItem
      · cases hItem
        exact ⟨_, rfl⟩
      · cases hItem
    | _ => cases hItem

end Faults

end Recipe

namespace Script

instance : LawfulMonad Script := LawfulMonad.mk' Script
  (fun script => bind_done script)
  (fun _ _ => rfl)
  (fun script f g => bind_assoc script f g)

variable {α β γ δ : Type} {Rel : Pools → α → β → Prop} {p p' : Pools}

/-- The relation survives whatever is added to the pools. -/
def Stable (Rel : Pools → α → β → Prop) : Prop :=
  ∀ ⦃p p' : Pools⦄ ⦃a : α⦄ ⦃b : β⦄, p.Extends p' → Rel p a b → Rel p' a b

/-- From the pools `p` on, the script does what the recipe tells, and its result is related to that
of the recipe by `Rel`. -/
def Follows (Rel : Pools → α → β → Prop) : Script α → Pools → Recipe β → Prop
  | done a, p, c => ∃ b, c = pure b ∧ Rel p a b
  | fail e, _, c => c = ⟨[], .error e⟩
  | ask request next, p, c => ∃ rest : Recipe β, c = (Recipe.request request >>= fun _ => rest) ∧
      (fault? request.parts = none → ∀ p' slot, p.Extends p' → p'.WellFormed →
        p'.contents? slot = some request.contents → Follows Rel (next slot) p' rest)

theorem Follows.mono (hRel : Stable Rel) {script : Script α} {c : Recipe β}
    (h : script.Follows Rel p c) (hExtends : p.Extends p') : script.Follows Rel p' c := by
  cases script with
  | done a =>
    obtain ⟨b, hb, hRelated⟩ := h
    exact ⟨b, hb, hRel hExtends hRelated⟩
  | fail e => exact h
  | ask request next =>
    obtain ⟨rest, hRest, hNext⟩ := h
    exact ⟨rest, hRest, fun hFault p'' slot h' => hNext hFault p'' slot (hExtends.trans h')⟩

theorem Follows.bind {Rel' : Pools → γ → δ → Prop} {script : Script α} {c : Recipe β}
    {f : α → Script γ} {g : β → Recipe δ} (hp : p.WellFormed) (h : script.Follows Rel p c)
    (hNext : ∀ p' a b, p.Extends p' → p'.WellFormed → Rel p' a b → (f a).Follows Rel' p' (g b)) :
    (script >>= f).Follows Rel' p (c >>= g) := by
  change (script.bind f).Follows Rel' p (c >>= g)
  induction script generalizing p c with
  | done a =>
    obtain ⟨b, rfl, hRelated⟩ := h
    rw [pure_bind]
    exact hNext p a b (.refl p) hp hRelated
  | fail e =>
    obtain rfl : c = ⟨[], .error e⟩ := h
    exact rfl
  | ask request next ih =>
    obtain ⟨rest, rfl, hRest⟩ := h
    refine ⟨rest >>= g, LawfulMonad.bind_assoc _ _ _, ?_⟩
    intro hFault p' slot hExtends hp' hSlot
    exact ih slot hp' (hRest hFault p' slot hExtends hp' hSlot)
      fun p'' a b h'' => hNext p'' a b (hExtends.trans h'')

theorem follows_pure {a : α} {b : β} (h : Rel p a b) :
    (pure a : Script α).Follows Rel p (pure b) := ⟨b, rfl, h⟩

theorem Follows.map {Rel' : Pools → γ → β → Prop} {script : Script α} {c : Recipe β} {f : α → γ}
    (hp : p.WellFormed) (h : script.Follows Rel p c)
    (hMap : ∀ p' a b, p.Extends p' → p'.WellFormed → Rel p' a b → Rel' p' (f a) b) :
    (script >>= fun a => pure (f a)).Follows Rel' p c := by
  rw [← bind_pure c]
  exact h.bind hp fun p' a b hExtends hp' hRelated => follows_pure (hMap p' a b hExtends hp' hRelated)

theorem Follows.imp {Rel' : Pools → α → β → Prop} {script : Script α} {c : Recipe β}
    (hp : p.WellFormed) (h : script.Follows Rel p c)
    (hImp : ∀ p' a b, p.Extends p' → p'.WellFormed → Rel p' a b → Rel' p' a b) :
    script.Follows Rel' p c := by
  rw [← bind_pure script]
  exact h.map hp hImp

theorem follows_ofExcept {x : Except SynthesisError α} :
    (ofExcept x).Follows (fun _ a b => a = b ∧ x = .ok b) p (Recipe.ofExcept x) := by
  cases x with
  | ok a => exact ⟨a, rfl, rfl, rfl⟩
  | error e => exact rfl

def Denotes {t : TableName} (p : Pools) (slot : Slot t) (r : Request t) : Prop :=
  p.contents? slot = some r.contents

theorem Denotes.mono {t : TableName} {slot : Slot t} {r : Request t} (h : Denotes p slot r)
    (hExtends : p.Extends p') : Denotes p' slot r :=
  hExtends.contents? h

theorem follows_request {t : TableName} (r : Request t) :
    (request r).Follows (fun p' slot _ => Denotes p' slot r) p (Recipe.request r) :=
  ⟨pure (), (bind_pure _).symm, fun _ _ _ _ _ hSlot => ⟨(), rfl, hSlot⟩⟩

theorem follows_mapM {ι : Type} {f : ι → Script α} {g : ι → Recipe Unit} {Q : ι → Pools → α → Prop}
    (hMono : ∀ {x a} {p p' : Pools}, p.Extends p' → Q x p a → Q x p' a) (hp : p.WellFormed)
    {xs : List ι} (hStep : ∀ x ∈ xs, ∀ p', p'.WellFormed →
      (f x).Follows (fun p' a _ => Q x p' a) p' (g x)) :
    (xs.mapM f).Follows (fun p' as _ => List.Forall₂ (fun x a => Q x p' a) xs as) p
      (xs.forM g) := by
  induction xs generalizing p with
  | nil => exact follows_pure .nil
  | cons x xs ih =>
    rw [List.mapM_cons]
    change Follows _ _ p (g x >>= fun _ => xs.forM g)
    refine (hStep x List.mem_cons_self p hp).bind hp ?_
    intro p₁ a _ h₁ hp₁ hHead
    refine (ih hp₁ fun y hy => hStep y (List.mem_cons_of_mem x hy)).map hp₁ ?_
    intro p₂ as _ h₂ hp₂ hRest
    exact .cons (hMono h₂ hHead) hRest

theorem follows_optionMapM {ι : Type} {f : ι → Script α} {g : ι → Recipe Unit}
    {Q : ι → Pools → α → Prop} (hp : p.WellFormed) (x? : Option ι)
    (hStep : ∀ x p', p'.WellFormed → (f x).Follows (fun p' a _ => Q x p' a) p' (g x)) :
    (x?.mapM f).Follows
      (fun p' a? _ => List.Forall₂ (fun x a => Q x p' a) x?.toList a?.toList) p
      (x?.toList.forM g) := by
  cases x? with
  | none => exact follows_pure .nil
  | some x =>
    change Follows _ (some <$> f x) p (g x >>= fun _ => pure ())
    rw [bind_pure, map_eq_pure_bind]
    exact (hStep x p hp).map hp fun p' a _ _ _ ha => .cons ha .nil

/-- One request of a script. A script that has ended stays as it is. -/
def step : Script α → Pools → Script α × Pools
  | done a, p => (done a, p)
  | fail e, p => (fail e, p)
  | ask request next, p =>
    match request.intern.run p with
    | (.ok slot, p') => (next slot, p')
    | (.error e, p') => (fail e, p')

theorem step_ask_of_ok {t : TableName} {r : Request t} {next : Slot t → Script α} {slot : Slot t}
    (h : (r.intern.run p).1 = .ok slot) :
    (ask r next).step p = (next slot, (r.intern.run p).2) := by
  have hRun : r.intern.run p = (.ok slot, (r.intern.run p).2) := Prod.ext h rfl
  rw [step, hRun]

theorem step_ask_of_error {t : TableName} {r : Request t} {next : Slot t → Script α}
    {e : SynthesisError} (h : (r.intern.run p).1 = .error e) :
    (ask r next).step p = (fail e, (r.intern.run p).2) := by
  have hRun : r.intern.run p = (.error e, (r.intern.run p).2) := Prod.ext h rfl
  rw [step, hRun]

theorem run_step (script : Script α) (p : Pools) :
    (script.step p).1.run (script.step p).2 = script.run p := by
  cases script with
  | done a => rfl
  | fail e => rfl
  | ask request next =>
    rw [run, step]
    obtain ⟨result, p'⟩ := request.intern.run p
    cases result <;> rfl

theorem Follows.step {script : Script α} {c : Recipe β} (hp : p.WellFormed)
    (h : script.Follows Rel p c) :
    p.Extends (script.step p).2 ∧ (script.step p).2.WellFormed ∧ ∃ items c',
      c.items = items ++ c'.items ∧ c.outcome = c'.outcome ∧
      (∀ item, (script.step p).2.Holds item ↔ p.Holds item ∨ item ∈ items) ∧
      (script.step p).1.Follows Rel (script.step p).2 c' := by
  cases script with
  | done a => exact ⟨.refl p, hp, [], c, rfl, rfl, by simp [Script.step], h⟩
  | fail e => exact ⟨.refl p, hp, [], c, rfl, rfl, by simp [Script.step], h⟩
  | ask request next =>
    obtain ⟨rest, rfl, hRest⟩ := h
    have hInterns := request.interns_intern hp
    cases hFault : fault? request.parts with
    | none =>
      obtain ⟨slot, hSlot, hDenotes⟩ := hInterns.success hFault
      have hBind := Recipe.bind_of_ok (c := Recipe.request request) (a := ())
        (by rw [Recipe.request, hFault]) fun _ => rest
      rw [step_ask_of_ok hSlot, hBind]
      exact ⟨hInterns.extended, hInterns.wellFormed, _, rest, rfl, rfl, hInterns.holds,
        hRest hFault _ slot hInterns.extended hInterns.wellFormed hDenotes⟩
    | some e =>
      have hBind := Recipe.bind_of_error (c := Recipe.request request) (e := e)
        (by rw [Recipe.request, hFault]) fun _ => rest
      rw [step_ask_of_error (hInterns.failure e hFault), hBind]
      exact ⟨hInterns.extended, hInterns.wellFormed, _, ⟨[], .error e⟩, (List.append_nil _).symm,
        rfl, hInterns.holds, rfl⟩

def Yields (Rel : Pools → α → β → Prop) (p : Pools) (c : Recipe β)
    (result : Except SynthesisError α) : Prop :=
  match c.outcome with
  | .ok b => ∃ a, result = .ok a ∧ Rel p a b
  | .error e => result = .error e

theorem Yields.exists_of_ok {c : Recipe β} {a : α} (h : Yields Rel p c (.ok a)) :
    ∃ b, c.outcome = .ok b ∧ Rel p a b := by
  rw [Yields] at h
  split at h
  · next b hOutcome =>
    obtain ⟨a', hResult, hRelated⟩ := h
    cases hResult
    exact ⟨b, hOutcome, hRelated⟩
  · cases h

theorem Yields.outcome_of_error {c : Recipe β} {e : SynthesisError} (h : Yields Rel p c (.error e)) :
    c.outcome = .error e := by
  rw [Yields] at h
  split at h
  · obtain ⟨_, hResult, -⟩ := h
    cases hResult
  · next e' hOutcome =>
    cases h
    exact hOutcome

theorem Yields.mono (hRel : Stable Rel) {c : Recipe β} {result : Except SynthesisError α}
    (h : Yields Rel p c result) (hExtends : p.Extends p') : Yields Rel p' c result := by
  rw [Yields] at h ⊢
  split
  · next b hOutcome =>
    rw [hOutcome] at h
    obtain ⟨a, hResult, hRelated⟩ := h
    exact ⟨a, hResult, hRel hExtends hRelated⟩
  · next e hOutcome => rwa [hOutcome] at h

theorem Yields.matches_of_yields {c : Recipe β} {result result' : Except SynthesisError α}
    (h : Yields Rel p c result) (h' : Yields Rel p' c result') :
    Except.Matches (fun a a' => ∃ b, Rel p a b ∧ Rel p' a' b) result result' := by
  rw [Yields] at h h'
  cases hOutcome : c.outcome with
  | ok b =>
    rw [hOutcome] at h h'
    obtain ⟨a, rfl, hRelated⟩ := h
    obtain ⟨a', rfl, hRelated'⟩ := h'
    exact .ok ⟨b, hRelated, hRelated'⟩
  | error e =>
    rw [hOutcome] at h h'
    subst h h'
    exact .error e

/-- What scripts that follow `recipes` leave behind when they have all ended. -/
structure Realizes (Rel : Pools → α → β → Prop) (p : Pools) (recipes : List (Recipe β))
    (results : List (Except SynthesisError α)) (p' : Pools) : Prop where
  extended : p.Extends p'
  wellFormed : p'.WellFormed
  holds : ∀ item, p'.Holds item ↔ p.Holds item ∨ item ∈ recipes.flatMap Recipe.items
  yields : List.Forall₂ (Yields Rel p') recipes results

theorem Realizes.matches_of_realizes {p₀ p₀' : Pools} {recipes : List (Recipe β)}
    {results results' : List (Except SynthesisError α)} (h : Realizes Rel p₀ recipes results p)
    (h' : Realizes Rel p₀' recipes results' p') :
    List.Forall₂ (Except.Matches fun a a' => ∃ b, Rel p a b ∧ Rel p' a' b) results results' :=
  Pairing.comp h.yields.flip h'.yields fun _ c _ (hYields : Yields Rel p c _) hYields' =>
    hYields.matches_of_yields hYields'

theorem yields_of_done {a : α} {c : Recipe β} (h : (done a).Follows Rel p c) :
    Yields Rel p c (.ok a) ∧ c.items = [] := by
  obtain ⟨b, rfl, hRelated⟩ := h
  exact ⟨⟨a, rfl, hRelated⟩, rfl⟩

theorem yields_of_fail {e : SynthesisError} {c : Recipe β}
    (h : (fail e : Script α).Follows Rel p c) : Yields Rel p c (.error e) ∧ c.items = [] := by
  obtain rfl : c = ⟨[], .error e⟩ := h
  exact ⟨rfl, rfl⟩

theorem realizes_singleton {c : Recipe β} {result : Except SynthesisError α} (hp : p.WellFormed)
    (h : Yields Rel p c result ∧ c.items = []) : Realizes Rel p [c] [result] p :=
  ⟨.refl p, hp, by simp [h.2], .cons h.1 .nil⟩

theorem Follows.run {script : Script α} {c : Recipe β} (hp : p.WellFormed)
    (h : script.Follows Rel p c) : Realizes Rel p [c] [(script.run p).1] (script.run p).2 := by
  induction script generalizing p c with
  | done a => exact realizes_singleton hp (yields_of_done h)
  | fail e => exact realizes_singleton hp (yields_of_fail h)
  | ask request next ih =>
    obtain ⟨hExtends, hp', items, c', hItems, hOutcome, hHolds, hFollows⟩ := h.step hp
    rw [← run_step]
    have hRest : Realizes Rel ((ask request next).step p).2 [c']
        [(((ask request next).step p).1.run ((ask request next).step p).2).1]
        (((ask request next).step p).1.run ((ask request next).step p).2).2 := by
      cases hResult : (request.intern.run p).1 with
      | ok slot =>
        rw [step_ask_of_ok hResult] at hp' hFollows ⊢
        exact ih slot hp' hFollows
      | error e =>
        rw [step_ask_of_error hResult] at hp' hFollows ⊢
        exact realizes_singleton hp' (yields_of_fail hFollows)
    refine ⟨hExtends.trans hRest.extended, hRest.wellFormed, ?_, ?_⟩
    · intro item
      rw [hRest.holds, hHolds]
      simp [hItems, or_assoc]
    · have hYields := hRest.yields
      simp only [List.forall₂_cons, List.forall₂_nil_left_iff, and_true, Yields, hOutcome]
        at hYields ⊢
      exact hYields

/-- Scripts that are run one after the other do what their recipes tell. -/
theorem realizes_runAll (hRel : Stable Rel) {scripts : List (Script α)} {recipes : List (Recipe β)}
    (hp : p.WellFormed) (h : List.Forall₂
      (fun script c => ∀ p', p'.WellFormed → script.Follows Rel p' c) scripts recipes) :
    Realizes Rel p recipes (runAll scripts p).1 (runAll scripts p).2 := by
  induction h generalizing p with
  | nil => exact ⟨.refl p, hp, by simp [runAll], .nil⟩
  | @cons script c scripts recipes hScript _ ih =>
    have hFirst := (hScript p hp).run hp
    have hRest := ih hFirst.wellFormed
    refine ⟨hFirst.extended.trans hRest.extended, hRest.wellFormed, ?_, ?_⟩
    · intro item
      rw [runAll]
      dsimp only
      rw [hRest.holds, hFirst.holds]
      simp [or_assoc]
    · have hHead := (List.forall₂_cons.mp hFirst.yields).1
      exact .cons (hHead.mono hRel hRest.extended) hRest.yields

end Script

end DexForge
