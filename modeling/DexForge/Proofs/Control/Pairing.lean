import Mathlib.Data.List.Forall2

/-! # Lists that correspond element by element -/
set_option autoImplicit false

namespace DexForge.Pairing

variable {α β γ : Type} {R : α → β → Prop} {as : List α} {bs : List β}

theorem exists_of_mem_left (h : List.Forall₂ R as bs) {a : α} (ha : a ∈ as) :
    ∃ b ∈ bs, R a b := by
  induction h with
  | nil => cases ha
  | cons hHead _ ih =>
    obtain rfl | ha := List.mem_cons.mp ha
    · exact ⟨_, List.mem_cons_self, hHead⟩
    · obtain ⟨b, hb, hR⟩ := ih ha
      exact ⟨b, List.mem_cons_of_mem _ hb, hR⟩

theorem exists_of_mem_right (h : List.Forall₂ R as bs) {b : β} (hb : b ∈ bs) :
    ∃ a ∈ as, R a b :=
  exists_of_mem_left h.flip hb

theorem getElem?_left (h : List.Forall₂ R as bs) {i : Nat} {a : α} (ha : as[i]? = some a) :
    ∃ b, bs[i]? = some b ∧ R a b := by
  induction h generalizing i with
  | nil => simp at ha
  | cons hHead _ ih =>
    cases i with
    | zero =>
      rw [List.getElem?_cons_zero, Option.some.injEq] at ha
      subst ha
      exact ⟨_, rfl, hHead⟩
    | succ i => exact ih ha

theorem getElem?_right (h : List.Forall₂ R as bs) {i : Nat} {b : β} (hb : bs[i]? = some b) :
    ∃ a, as[i]? = some a ∧ R a b :=
  getElem?_left h.flip hb

theorem pairwise {S : α → α → Prop} {T : β → β → Prop} (h : List.Forall₂ R as bs)
    (hPairwise : as.Pairwise S)
    (hStep : ∀ a ∈ as, ∀ a' ∈ as, ∀ b b', R a b → R a' b' → S a a' → T b b') :
    bs.Pairwise T := by
  induction h with
  | nil => exact .nil
  | @cons a b as bs hHead hTail ih =>
    rw [List.pairwise_cons] at hPairwise ⊢
    refine ⟨?_, ih hPairwise.2 fun x hx y hy =>
      hStep x (List.mem_cons_of_mem a hx) y (List.mem_cons_of_mem a hy)⟩
    intro b' hb'
    obtain ⟨a', ha', hR⟩ := exists_of_mem_right hTail hb'
    exact hStep a List.mem_cons_self a' (List.mem_cons_of_mem a ha') b b' hHead hR
      (hPairwise.1 a' ha')

theorem mapM_eq_some_iff {f : α → Option β} :
    as.mapM f = some bs ↔ List.Forall₂ (fun a b => f a = some b) as bs := by
  induction as generalizing bs with
  | nil => simp [eq_comm]
  | cons a as ih =>
    rw [List.mapM_cons, List.forall₂_cons_left_iff]
    simp only [Option.bind_eq_bind, Option.bind_eq_some_iff, Option.pure_def, Option.some.injEq]
    constructor
    · rintro ⟨b, hb, tail, hTail, rfl⟩
      exact ⟨b, tail, hb, ih.mp hTail, rfl⟩
    · rintro ⟨b, tail, hb, hTail, rfl⟩
      exact ⟨b, hb, tail, ih.mpr hTail, rfl⟩

theorem mapM_congr {m : Type → Type} [Monad m] [LawfulMonad m] {f : α → m γ} {g : β → m γ}
    (h : List.Forall₂ (fun a b => f a = g b) as bs) : as.mapM f = bs.mapM g := by
  induction h with
  | nil => rfl
  | cons hHead _ ih => rw [List.mapM_cons, List.mapM_cons, hHead, ih]

theorem eq_of_injective {S : α → β → Prop} (hInjective : ∀ a a' b, S a b → S a' b → a = a')
    {as' : List α} (h : List.Forall₂ S as bs) (h' : List.Forall₂ S as' bs) : as = as' := by
  induction h generalizing as' with
  | nil => exact (List.forall₂_nil_right_iff.mp h').symm
  | cons hHead _ ih =>
    cases h' with
    | cons hHead' hTail' => rw [hInjective _ _ _ hHead hHead', ih hTail']

theorem positions (h : List.Forall₂ R as bs) :
    List.Forall₂ (fun a b => R a b ∧ ∃ i : Nat, as[i]? = some a ∧ bs[i]? = some b) as bs := by
  induction h with
  | nil => exact .nil
  | cons hHead _ ih =>
    refine .cons ⟨hHead, 0, rfl, rfl⟩ (ih.imp ?_)
    rintro a b ⟨hR, i, ha, hb⟩
    exact ⟨hR, i + 1, ha, hb⟩

theorem eraseIdx (h : List.Forall₂ R as bs) (i : Nat) :
    List.Forall₂ R (as.eraseIdx i) (bs.eraseIdx i) := by
  induction h generalizing i with
  | nil => exact .nil
  | cons hHead hTail ih =>
    cases i with
    | zero => exact hTail
    | succ i => exact .cons hHead (ih i)

theorem findIdx?_congr {f : α → Bool} {g : β → Bool}
    (h : List.Forall₂ (fun a b => f a = g b) as bs) : as.findIdx? f = bs.findIdx? g := by
  induction h with
  | nil => rfl
  | cons hHead _ ih => rw [List.findIdx?_cons, List.findIdx?_cons, hHead, ih]

theorem findSome?_congr {f : α → Option γ} {g : β → Option γ}
    (h : List.Forall₂ (fun a b => f a = g b) as bs) : as.findSome? f = bs.findSome? g := by
  induction h with
  | nil => rfl
  | cons hHead _ ih => rw [List.findSome?_cons, List.findSome?_cons, hHead, ih]

theorem map_zip_congr {f : α × β → γ} {as as' : List α} (bs : List β)
    (h : List.Forall₂ (fun a a' => ∀ b, f (a, b) = f (a', b)) as as') :
    (as.zip bs).map f = (as'.zip bs).map f := by
  induction h generalizing bs with
  | nil => rfl
  | cons hHead _ ih =>
    cases bs with
    | nil => rfl
    | cons b bs => simp only [List.zip_cons_cons, List.map_cons, hHead, ih]

theorem comp {S : β → γ → Prop} {T : α → γ → Prop} {cs : List γ} (hAs : List.Forall₂ R as bs)
    (hBs : List.Forall₂ S bs cs) (h : ∀ a b c, R a b → S b c → T a c) : List.Forall₂ T as cs := by
  induction hAs generalizing cs with
  | nil =>
    cases hBs
    exact .nil
  | cons hHead _ ih =>
    cases hBs with
    | cons hNext hRest => exact .cons (h _ _ _ hHead hNext) (ih hRest)

/-- A correspondence is carried over to what the lists on both sides correspond to. -/
theorem square {δ : Type} {S : α → γ → Prop} {S' : β → δ → Prop} {T : γ → δ → Prop} {cs : List γ}
    {ds : List δ} (h : List.Forall₂ R as bs) (hLeft : List.Forall₂ S as cs)
    (hRight : List.Forall₂ S' bs ds) (hStep : ∀ a b c d, R a b → S a c → S' b d → T c d) :
    List.Forall₂ T cs ds := by
  induction h generalizing cs ds with
  | nil =>
    cases hLeft
    cases hRight
    exact .nil
  | cons hHead _ ih =>
    cases hLeft with
    | cons hFirst hRest =>
      cases hRight with
      | cons hFirst' hRest' => exact .cons (hStep _ _ _ _ hHead hFirst hFirst') (ih hRest hRest')

theorem zip_map {δ : Type} {S : β → γ → Prop} {T : α → δ → Prop} {cs : List γ} {f : α × β × γ → δ}
    (hAs : List.Forall₂ R as bs) (hBs : List.Forall₂ S bs cs)
    (h : ∀ a b c, R a b → S b c → T a (f (a, b, c))) :
    List.Forall₂ T as ((as.zip (bs.zip cs)).map f) := by
  induction hAs generalizing cs with
  | nil => exact .nil
  | cons hHead _ ih =>
    cases hBs with
    | cons hNext hRest => exact .cons (h _ _ _ hHead hNext) (ih hRest)

end DexForge.Pairing
