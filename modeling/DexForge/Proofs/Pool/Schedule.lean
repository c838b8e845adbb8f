import DexForge.Proofs.Pool.Recipe

/-! # Schedules

Several scripts take turns on the same pools, one request a turn. A schedule tells whose turn it is.
Whatever the schedule, scripts that have all ended have done what their recipes tell.
-/
set_option autoImplicit false

namespace DexForge.Script

open Pools

variable {α β : Type} {Rel : Pools → α → β → Prop} {p : Pools}

def turn : Nat → List (Script α) → Pools → List (Script α) × Pools
  | _, [], p => ([], p)
  | 0, script :: rest, p => ((script.step p).1 :: rest, (script.step p).2)
  | i + 1, script :: rest, p => (script :: (turn i rest p).1, (turn i rest p).2)

def runSchedule : List Nat → List (Script α) → Pools → List (Script α) × Pools
  | [], scripts, p => (scripts, p)
  | i :: schedule, scripts, p => runSchedule schedule (turn i scripts p).1 (turn i scripts p).2

def result? : Script α → Option (Except SynthesisError α)
  | done a => some (.ok a)
  | fail e => some (.error e)
  | ask _ _ => none

/-- The scripts still have to follow `rests`, and what the pools hold makes up for the difference to
`recipes`. -/
structure Progress (Rel : Pools → α → β → Prop) (p₀ : Pools) (recipes : List (Recipe β))
    (scripts : List (Script α)) (rests : List (Recipe β)) (p : Pools) : Prop where
  extended : p₀.Extends p
  wellFormed : p.WellFormed
  follows : List.Forall₂ (fun script rest => script.Follows Rel p rest) scripts rests
  outcomes : rests.map Recipe.outcome = recipes.map Recipe.outcome
  holds : ∀ item, p.Holds item ∨ item ∈ rests.flatMap Recipe.items ↔
    p₀.Holds item ∨ item ∈ recipes.flatMap Recipe.items

theorem progress_start {scripts : List (Script α)} {recipes : List (Recipe β)} (hp : p.WellFormed)
    (h : List.Forall₂ (fun script c => script.Follows Rel p c) scripts recipes) :
    Progress Rel p recipes scripts recipes p :=
  ⟨.refl p, hp, h, rfl, fun _ => Iff.rfl⟩

theorem Progress.trans {p₀ p₁ p₂ : Pools} {recipes rests rests' : List (Recipe β)}
    {scripts scripts' : List (Script α)} (h : Progress Rel p₀ recipes scripts rests p₁)
    (h' : Progress Rel p₁ rests scripts' rests' p₂) : Progress Rel p₀ recipes scripts' rests' p₂ :=
  ⟨h.extended.trans h'.extended, h'.wellFormed, h'.follows, h'.outcomes.trans h.outcomes,
   fun item => (h'.holds item).trans (h.holds item)⟩

theorem exists_progress_turn (hRel : Stable Rel) (hp : p.WellFormed) {scripts : List (Script α)}
    {recipes : List (Recipe β)}
    (h : List.Forall₂ (fun script c => script.Follows Rel p c) scripts recipes) (i : Nat) :
    ∃ rests, Progress Rel p recipes (turn i scripts p).1 rests (turn i scripts p).2 := by
  induction h generalizing i with
  | nil =>
    rw [turn]
    exact ⟨[], progress_start hp .nil⟩
  | @cons script c scripts recipes hHead hTail ih =>
    cases i with
    | zero =>
      obtain ⟨hExtends, hp', items, c', hItems, hOutcome, hHolds, hFollows⟩ := hHead.step hp
      refine ⟨c' :: recipes, hExtends, hp', ?_, ?_, ?_⟩
      · exact .cons hFollows (hTail.imp fun _ _ hScript => hScript.mono hRel hExtends)
      · rw [List.map_cons, List.map_cons, hOutcome]
      · intro item
        simp only [turn, List.flatMap_cons, List.mem_append, hHolds, hItems]
        tauto
    | succ i =>
      obtain ⟨rests, hRests⟩ := ih i
      refine ⟨c :: rests, hRests.extended, hRests.wellFormed, ?_, ?_, ?_⟩
      · exact .cons (hHead.mono hRel hRests.extended) hRests.follows
      · rw [List.map_cons, List.map_cons, hRests.outcomes]
      · intro item
        have hHolds := hRests.holds item
        simp only [turn, List.flatMap_cons, List.mem_append] at hHolds ⊢
        tauto

theorem exists_progress_runSchedule (hRel : Stable Rel) (hp : p.WellFormed)
    {scripts : List (Script α)} {recipes : List (Recipe β)}
    (h : List.Forall₂ (fun script c => script.Follows Rel p c) scripts recipes)
    (schedule : List Nat) :
    ∃ rests, Progress Rel p recipes (runSchedule schedule scripts p).1 rests
      (runSchedule schedule scripts p).2 := by
  induction schedule generalizing scripts recipes p with
  | nil => exact ⟨recipes, progress_start hp h⟩
  | cons i schedule ih =>
    obtain ⟨rests, hTurn⟩ := exists_progress_turn hRel hp h i
    obtain ⟨rests', hRest⟩ := ih hTurn.wellFormed hTurn.follows
    exact ⟨rests', hTurn.trans hRest⟩

theorem Follows.yields_of_result? {script : Script α} {c : Recipe β}
    {result : Except SynthesisError α} (h : script.Follows Rel p c)
    (hResult : script.result? = some result) : Yields Rel p c result ∧ c.items = [] := by
  cases script with
  | done a =>
    cases hResult
    exact yields_of_done h
  | fail e =>
    cases hResult
    exact yields_of_fail h
  | ask request next => cases hResult

/-- Scripts that have all ended have done what their recipes tell, in whatever order. -/
theorem realizes_runSchedule (hRel : Stable Rel) (hp : p.WellFormed) {scripts : List (Script α)}
    {recipes : List (Recipe β)}
    (h : List.Forall₂ (fun script c => script.Follows Rel p c) scripts recipes)
    {schedule : List Nat} {results : List (Except SynthesisError α)}
    (hResults : (runSchedule schedule scripts p).1.mapM result? = some results) :
    Realizes Rel p recipes results (runSchedule schedule scripts p).2 := by
  obtain ⟨rests, hProgress⟩ := exists_progress_runSchedule hRel hp h schedule
  have hEnded := Pairing.comp hProgress.follows.flip (Pairing.mapM_eq_some_iff.mp hResults)
    fun _ _ _ hFollows hResult => Follows.yields_of_result? hFollows hResult
  have hItems : rests.flatMap Recipe.items = [] := by
    rw [List.flatMap_eq_nil_iff]
    intro rest hRest
    obtain ⟨_, -, -, hNone⟩ := Pairing.exists_of_mem_left hEnded hRest
    exact hNone
  refine ⟨hProgress.extended, hProgress.wellFormed, ?_, ?_⟩
  · intro item
    rw [← hProgress.holds, hItems]
    simp
  · have hYields : List.Forall₂ (fun outcome result => Yields Rel (runSchedule schedule scripts p).2
        ⟨[], outcome⟩ result) (rests.map Recipe.outcome) results :=
      List.forall₂_map_left_iff.mpr (hEnded.imp fun _ _ hRest => hRest.1)
    rw [hProgress.outcomes, List.forall₂_map_left_iff] at hYields
    exact hYields

theorem runSchedule_append (schedule schedule' : List Nat) (scripts : List (Script α)) (p : Pools) :
    runSchedule (schedule ++ schedule') scripts p =
      runSchedule schedule' (runSchedule schedule scripts p).1
        (runSchedule schedule scripts p).2 := by
  induction schedule generalizing scripts p with
  | nil => rfl
  | cons i schedule ih => exact ih _ _

theorem runSchedule_map_succ (schedule : List Nat) (script : Script α) (rest : List (Script α))
    (p : Pools) : runSchedule (schedule.map Nat.succ) (script :: rest) p =
      (script :: (runSchedule schedule rest p).1, (runSchedule schedule rest p).2) := by
  induction schedule generalizing rest p with
  | nil => rfl
  | cons i schedule ih => exact ih _ _

theorem exists_runSchedule_head (script : Script α) (rest : List (Script α)) (p : Pools) :
    ∃ schedule, runSchedule schedule (script :: rest) p =
      (ofExcept (script.run p).1 :: rest, (script.run p).2) := by
  induction script generalizing p with
  | done a => exact ⟨[], rfl⟩
  | fail e => exact ⟨[], rfl⟩
  | ask request next ih =>
    rw [← run_step]
    cases hResult : (request.intern.run p).1 with
    | ok slot =>
      obtain ⟨schedule, hSchedule⟩ := ih slot (request.intern.run p).2
      refine ⟨0 :: schedule, ?_⟩
      rw [runSchedule, turn, step_ask_of_ok hResult]
      exact hSchedule
    | error e =>
      refine ⟨[0], ?_⟩
      rw [runSchedule, turn, step_ask_of_error hResult]
      rfl

/-- Running the scripts one after the other is one of the schedules. -/
theorem exists_runSchedule_eq (scripts : List (Script α)) (p : Pools) :
    ∃ schedule, runSchedule schedule scripts p =
      ((runAll scripts p).1.map ofExcept, (runAll scripts p).2) := by
  induction scripts generalizing p with
  | nil => exact ⟨[], rfl⟩
  | cons script rest ih =>
    obtain ⟨first, hFirst⟩ := exists_runSchedule_head script rest p
    obtain ⟨later, hLater⟩ := ih (script.run p).2
    refine ⟨first ++ later.map Nat.succ, ?_⟩
    rw [runSchedule_append, hFirst, runSchedule_map_succ, hLater]
    rfl

theorem mapM_result?_map_ofExcept (results : List (Except SynthesisError α)) :
    (results.map ofExcept).mapM result? = some results := by
  rw [Pairing.mapM_eq_some_iff, List.forall₂_map_left_iff, List.forall₂_same]
  intro result _
  cases result <;> rfl

end DexForge.Script
