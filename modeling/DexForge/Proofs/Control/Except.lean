import Mathlib.Data.List.Forall2

/-! # Computations that may fail

How a sequence of steps ends well: every step does.
-/
set_option autoImplicit false

namespace DexForge.Except

variable {ε α β γ : Type}

@[simp] theorem ok_bind (a : α) (f : α → Except ε β) : (Except.ok a >>= f) = f a := rfl

@[simp] theorem error_bind (e : ε) (f : α → Except ε β) : (Except.error e >>= f) = .error e := rfl

theorem bind_eq_ok_iff {x : Except ε α} {f : α → Except ε β} {b : β} :
    (x >>= f) = .ok b ↔ ∃ a, x = .ok a ∧ f a = .ok b := by
  cases x with
  | error e => simp
  | ok a => simp

theorem bind_eq_error_iff {x : Except ε α} {f : α → Except ε β} {e : ε} :
    (x >>= f) = .error e ↔ x = .error e ∨ ∃ a, x = .ok a ∧ f a = .error e := by
  cases x with
  | error e => simp
  | ok a => simp

theorem map_eq_ok_iff {x : Except ε α} {f : α → β} {b : β} :
    x.map f = .ok b ↔ ∃ a, x = .ok a ∧ f a = b := by
  cases x with
  | error e => simp [Except.map]
  | ok a => simp [Except.map]

theorem mapError_eq_ok_iff {δ : Type} {x : Except ε α} {f : ε → δ} {a : α} :
    x.mapError f = .ok a ↔ x = .ok a := by
  cases x with
  | error e => simp [Except.mapError]
  | ok a => simp [Except.mapError]

theorem pure_eq_ok_iff {a b : α} : (pure a : Except ε α) = .ok b ↔ a = b := by
  simp [pure, Except.pure]

theorem bind_pure_eq_ok_iff {x : Except ε α} {f : α → β} {b : β} :
    (x >>= fun a => pure (f a)) = .ok b ↔ ∃ a, x = .ok a ∧ f a = b := by
  simp only [bind_eq_ok_iff, pure_eq_ok_iff]

theorem mapM_nil (f : α → Except ε β) : List.mapM f [] = .ok [] := rfl

theorem mapM_cons (f : α → Except ε β) (a : α) (as : List α) :
    (a :: as).mapM f = (f a >>= fun b => as.mapM f >>= fun bs => .ok (b :: bs)) := by
  rw [List.mapM_cons]
  rfl

theorem mapM_eq_ok_iff {f : α → Except ε β} {as : List α} {bs : List β} :
    as.mapM f = .ok bs ↔ List.Forall₂ (fun a b => f a = .ok b) as bs := by
  induction as generalizing bs with
  | nil =>
    rw [mapM_nil, List.forall₂_nil_left_iff, Except.ok.injEq]
    exact eq_comm
  | cons a as ih =>
    rw [mapM_cons, bind_eq_ok_iff, List.forall₂_cons_left_iff]
    constructor
    · rintro ⟨b, hb, hRest⟩
      obtain ⟨tail, hTail, hResult⟩ := bind_eq_ok_iff.mp hRest
      cases hResult
      exact ⟨b, tail, hb, ih.mp hTail, rfl⟩
    · rintro ⟨b, tail, hb, hTail, rfl⟩
      exact ⟨b, hb, by rw [ih.mpr hTail, ok_bind]⟩

theorem exists_bind_eq_ok {x : Except ε α} {f : α → Except ε β} (hx : ∃ a, x = .ok a)
    (hf : ∀ a, x = .ok a → ∃ b, f a = .ok b) : ∃ b, (x >>= f) = .ok b := by
  obtain ⟨a, ha⟩ := hx
  obtain ⟨b, hb⟩ := hf a ha
  exact ⟨b, bind_eq_ok_iff.mpr ⟨a, ha, hb⟩⟩

theorem exists_mapM_eq_ok {f : α → Except ε β} {as : List α} (h : ∀ a ∈ as, ∃ b, f a = .ok b) :
    ∃ bs, as.mapM f = .ok bs := by
  induction as with
  | nil => exact ⟨[], rfl⟩
  | cons a as ih =>
    obtain ⟨b, hb⟩ := h a List.mem_cons_self
    obtain ⟨bs, hbs⟩ := ih fun x hx => h x (List.mem_cons_of_mem _ hx)
    exact ⟨b :: bs, by rw [mapM_cons, hb, ok_bind, hbs, ok_bind]⟩

theorem exists_map_iff {x : Except ε α} {f : α → β} :
    (∃ b, x.map f = .ok b) ↔ ∃ a, x = .ok a := by
  cases x with
  | error e => simp [Except.map]
  | ok a => simp [Except.map]

theorem exists_bind_pure_iff {x : Except ε α} {f : α → β} :
    (∃ b, (x >>= fun a => pure (f a)) = .ok b) ↔ ∃ a, x = .ok a := by
  cases x with
  | error e => simp
  | ok a => simp [pure, Except.pure]

theorem forM_eq_ok_iff {f : α → Except ε Unit} {as : List α} :
    as.forM f = .ok () ↔ ∀ a ∈ as, f a = .ok () := by
  induction as with
  | nil => simp [pure, Except.pure]
  | cons a as ih =>
    change (f a >>= fun _ => as.forM f) = .ok () ↔ _
    rw [bind_eq_ok_iff, List.forall_mem_cons, ← ih]
    constructor
    · rintro ⟨⟨⟩, hHead, hTail⟩
      exact ⟨hHead, hTail⟩
    · rintro ⟨hHead, hTail⟩
      exact ⟨(), hHead, hTail⟩

theorem optionMapM_eq_ok_iff {f : α → Except ε β} {a? : Option α} {b? : Option β} :
    a?.mapM f = .ok b? ↔
      a? = none ∧ b? = none ∨ ∃ a b, a? = some a ∧ b? = some b ∧ f a = .ok b := by
  cases a? with
  | none =>
    change (Except.ok none : Except ε (Option β)) = .ok b? ↔ _
    simp [eq_comm]
  | some a =>
    change (some <$> f a) = .ok b? ↔ _
    cases h : f a <;> simp [h, Functor.map, Except.map, eq_comm]

theorem exists_optionMapM_eq_ok {f : α → Except ε β} {a? : Option α}
    (h : ∀ a ∈ a?, ∃ b, f a = .ok b) : ∃ b?, a?.mapM f = .ok b? := by
  cases a? with
  | none => exact ⟨none, rfl⟩
  | some a =>
    obtain ⟨b, hb⟩ := h a rfl
    exact ⟨some b, optionMapM_eq_ok_iff.mpr (Or.inr ⟨a, b, rfl, rfl, hb⟩)⟩

def Fails (P : ε → Prop) (x : Except ε α) : Prop := ∀ e, x = .error e → P e

theorem fails_ok {P : ε → Prop} {a : α} : Fails P (.ok a) := fun _ h => by cases h

theorem fails_error {P : ε → Prop} {e : ε} (h : P e) : Fails P (.error e : Except ε α) := by
  rintro _ ⟨⟩
  exact h

theorem Fails.bind {P : ε → Prop} {x : Except ε α} {f : α → Except ε β} (h : Fails P x)
    (hNext : ∀ a, x = .ok a → Fails P (f a)) : Fails P (x >>= f) := by
  intro e hError
  obtain hError | ⟨a, ha, hError⟩ := bind_eq_error_iff.mp hError
  · exact h e hError
  · exact hNext a ha e hError

theorem fails_mapError {δ : Type} {P : δ → Prop} {x : Except ε α} {f : ε → δ} (h : ∀ e, P (f e)) :
    Fails P (x.mapError f) := by
  cases x with
  | error e => exact fails_error (h e)
  | ok a => exact fails_ok

theorem fails_mapM {P : ε → Prop} {f : α → Except ε β} {as : List α}
    (h : ∀ a ∈ as, Fails P (f a)) : Fails P (as.mapM f) := by
  induction as with
  | nil => exact fails_ok
  | cons a as ih =>
    rw [List.forall_mem_cons] at h
    rw [mapM_cons]
    exact h.1.bind fun _ _ => (ih h.2).bind fun _ _ => fails_ok

theorem fails_forM {P : ε → Prop} {f : α → Except ε Unit} {as : List α}
    (h : ∀ a ∈ as, Fails P (f a)) : Fails P (as.forM f) := by
  induction as with
  | nil => exact fails_ok
  | cons a as ih =>
    rw [List.forall_mem_cons] at h
    exact h.1.bind fun _ _ => ih h.2

/-- The same fault, or results that are related by `R`. -/
inductive Matches (R : α → β → Prop) : Except ε α → Except ε β → Prop where
  | ok {a : α} {b : β} (h : R a b) : Matches R (.ok a) (.ok b)
  | error (e : ε) : Matches R (.error e) (.error e)

theorem matches_of_eq {R : α → α → Prop} {x y : Except ε α} (h : x = y) (hR : ∀ a, R a a) :
    Matches R x y := by
  subst h
  cases x with
  | ok a => exact .ok (hR a)
  | error e => exact .error e

theorem Matches.eq {x y : Except ε α} (h : Matches Eq x y) : x = y := by
  cases h with
  | ok h => rw [h]
  | error e => rfl

theorem Matches.bind {δ : Type} {R : α → β → Prop} {S : γ → δ → Prop} {x : Except ε α}
    {y : Except ε β} {f : α → Except ε γ} {g : β → Except ε δ} (h : Matches R x y)
    (hNext : ∀ a b, R a b → Matches S (f a) (g b)) : Matches S (x >>= f) (y >>= g) := by
  cases h with
  | ok h => exact hNext _ _ h
  | error e => exact .error e

theorem Matches.map {δ : Type} {R : α → β → Prop} {S : γ → δ → Prop} {x : Except ε α}
    {y : Except ε β} {f : α → γ} {g : β → δ} (h : Matches R x y)
    (hNext : ∀ a b, R a b → S (f a) (g b)) : Matches S (x.map f) (y.map g) := by
  cases h with
  | ok h => exact .ok (hNext _ _ h)
  | error e => exact .error e

theorem matches_mapM {δ : Type} {R : β → δ → Prop} {f : α → Except ε β} {g : γ → Except ε δ}
    {as : List α} {cs : List γ} (h : List.Forall₂ (fun a c => Matches R (f a) (g c)) as cs) :
    Matches (List.Forall₂ R) (as.mapM f) (cs.mapM g) := by
  induction h with
  | nil => exact .ok .nil
  | cons hHead _ ih =>
    rw [mapM_cons, mapM_cons]
    exact hHead.bind fun _ _ hFirst => ih.bind fun _ _ hRest => .ok (.cons hFirst hRest)

def error? : Except ε α → Option ε
  | .ok _ => none
  | .error e => some e

theorem error?_eq_some_iff {x : Except ε α} {e : ε} : error? x = some e ↔ x = .error e := by
  cases x <;> simp [error?]

theorem Matches.error?_eq {R : α → β → Prop} {x : Except ε α} {y : Except ε β}
    (h : Matches R x y) : error? x = error? y := by
  cases h <;> rfl

theorem error?_mapM (f : α → Except ε β) (as : List α) :
    error? (as.mapM f) = as.findSome? fun a => error? (f a) := by
  induction as with
  | nil => rfl
  | cons a as ih =>
    rw [mapM_cons, List.findSome?_cons]
    cases f a with
    | error e => rfl
    | ok b =>
      change _ = as.findSome? _
      rw [ok_bind, ← ih]
      cases as.mapM f <;> rfl

theorem optionMapM_congr {f : α → Except ε γ} {g : β → Except ε γ} {a? : Option α} {b? : Option β}
    (h : List.Forall₂ (fun a b => f a = g b) a?.toList b?.toList) : a?.mapM f = b?.mapM g := by
  cases a? with
  | none =>
    cases b? with
    | none => rfl
    | some b => cases h
  | some a =>
    cases b? with
    | none => cases h
    | some b =>
      have hEq : f a = g b := (List.forall₂_cons.mp h).1
      change some <$> f a = some <$> g b
      rw [hEq]

def Concur (x y : Except ε α) : Prop := ∃ a, x = .ok a ∧ y = .ok a

theorem concur_ok (a : α) : Concur (.ok a : Except ε α) (.ok a) := ⟨a, rfl, rfl⟩

theorem Concur.bind {x y : Except ε α} {f g : α → Except ε β} (h : Concur x y)
    (hNext : ∀ a, Concur (f a) (g a)) : Concur (x >>= f) (y >>= g) := by
  obtain ⟨a, rfl, rfl⟩ := h
  exact hNext a

theorem Concur.map {x y : Except ε α} (h : Concur x y) (f : α → β) :
    Concur (x.map f) (y.map f) := by
  obtain ⟨a, rfl, rfl⟩ := h
  exact concur_ok (f a)

theorem concur_mapM {f : α → Except ε γ} {g : β → Except ε γ} {as : List α} {bs : List β}
    (h : List.Forall₂ (fun a b => Concur (f a) (g b)) as bs) :
    Concur (as.mapM f) (bs.mapM g) := by
  induction h with
  | nil => exact concur_ok []
  | cons hHead _ ih =>
    rw [mapM_cons, mapM_cons]
    exact hHead.bind fun _ => ih.bind fun _ => concur_ok _

theorem concur_optionMapM {f : α → Except ε γ} {g : β → Except ε γ} {a : α} {b : β}
    (h : Concur (f a) (g b)) : Concur ((some a).mapM f) ((some b).mapM g) :=
  h.map some

end DexForge.Except
