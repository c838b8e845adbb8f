import DexForge.Cli.Execution
import DexForge.Proofs.Cli.FileTree
import DexForge.Proofs.Synthesis.Soundness

/-! # Outcomes of the synthesis command

Checking a container that was just synthesized finds nothing, so the command writes its output as a
whole or leaves every file alone, with the check and without it.
-/
set_option autoImplicit false

namespace DexForge.SynthOptions

open DexForge.Except DexForge.FileTree

variable {binding : HandlerBinding} {ds : List ClassDescription} {s : Synthesized}

theorem synthesize_eq (binding : HandlerBinding) (ds : List ClassDescription) :
    synthesize binding ds = (binding.synthesizeBatch ds).mapError .synthesis := by
  match ds with
  | [] => rfl
  | [d] => rw [synthesize, HandlerBinding.synthesize_eq]
  | _ :: _ :: _ => rfl

theorem synthesizeBatch_of_synthesize (h : synthesize binding ds = .ok s) :
    binding.synthesizeBatch ds = .ok s := by
  rw [synthesize_eq] at h
  exact mapError_eq_ok_iff.mp h

theorem verifies_of_synthesize (h : synthesize binding ds = .ok s) :
    ∃ c, Container.load s.bytes = .ok c ∧ c.verify = .ok () := by
  have hLoads := (HandlerBinding.built_runAll binding ds).loadsAndVerifies
  rw [← HandlerBinding.synthesizeBatch_eq, synthesizeBatch_of_synthesize h] at hLoads
  obtain ⟨c, hLoad, hVerify, -⟩ := hLoads
  exact ⟨c, hLoad, hVerify⟩

theorem check_of_synthesize (h : synthesize binding ds = .ok s) : check s = .ok () := by
  obtain ⟨c, hLoad, hVerify⟩ := verifies_of_synthesize h
  simp only [check, hLoad, hVerify]
  rfl

/-- The check makes no difference. -/
theorem container_eq (options : SynthOptions) (text : String) :
    options.container text =
      match ClassDescription.parseList? text with
      | none => .error .description
      | some ds => options.binding >>= fun binding => synthesize binding ds := by
  rw [container]
  cases ClassDescription.parseList? text with
  | none => rfl
  | some ds =>
    cases options.binding with
    | error fault => rfl
    | ok binding =>
      simp only [ok_bind]
      cases hSynthesize : synthesize binding ds with
      | error fault => rfl
      | ok s =>
        simp only [ok_bind]
        split
        · rw [check_of_synthesize hSynthesize]
          rfl
        · rfl

theorem container_verify (options : SynthOptions) (text : String) (verify : Bool) :
    { options with verify }.container text = options.container text := by
  rw [container_eq, container_eq]
  rfl

/-- The fault is none that the check finds. -/
def Unverified (fault : SynthFault) : Prop := ∀ cause, fault ≠ .verification cause

theorem fails_synthesize (binding : HandlerBinding) (ds : List ClassDescription) :
    Fails Unverified (synthesize binding ds) := by
  rw [synthesize_eq]
  apply fails_mapError
  rintro _ _ ⟨⟩

theorem fails_binding (options : SynthOptions) : Fails Unverified options.binding := by
  intro fault hFault cause
  rw [binding] at hFault
  split at hFault <;> cases hFault
  rintro ⟨⟩

theorem fails_container (options : SynthOptions) (text : String) :
    Fails Unverified (options.container text) := by
  rw [container_eq]
  split
  · exact fails_error fun _ h => by cases h
  · exact (fails_binding options).bind fun binding _ => fails_synthesize binding _

theorem exists_of_container {options : SynthOptions} {text : String}
    (h : options.container text = .ok s) :
    ∃ c, Container.load s.bytes = .ok c ∧ c.verify = .ok () := by
  rw [container_eq] at h
  split at h
  · cases h
  · obtain ⟨binding, -, hSynthesize⟩ := bind_eq_ok_iff.mp h
    exact verifies_of_synthesize hSynthesize

theorem execute_eq (options : SynthOptions) (tree : FileTree) :
    options.execute tree =
      match ((access.readText options.input).run tree).1 with
      | .error fault => (.error (.io options.input fault), tree)
      | .ok text =>
        match options.container text with
        | .error fault => (.error fault, tree)
        | .ok s =>
          match tree.write options.output s.bytes with
          | .error fault => (.error (.io options.output fault), tree)
          | .ok after => (.ok s, after) := by
  obtain ⟨read, hRead⟩ := run_readText tree options.input
  rw [execute, executeIn, run_bind, run_adapt, hRead]
  cases read with
  | error fault => rfl
  | ok text =>
    dsimp only [Except.mapError]
    rw [run_bind, run_lift]
    cases options.container text with
    | error fault => rfl
    | ok s =>
      dsimp only
      rw [run_bind, run_adapt, run_write]
      cases tree.write options.output s.bytes <;> rfl

/-- A run either leaves every file as it is, or gives bytes that load and verify and leaves them in
the file at the output path. -/
inductive Outcome (options : SynthOptions) (tree : FileTree) :
    Except SynthFault Synthesized × FileTree → Prop where
  | refused {fault : SynthFault} (h : Unverified fault) : Outcome options tree (.error fault, tree)
  | written {s : Synthesized} {after : FileTree} {location : List String} {c : Container}
      (hWrote : FileTree.Wrote tree after options.output s.bytes location)
      (hLoad : Container.load s.bytes = .ok c) (hVerify : c.verify = .ok ()) :
      Outcome options tree (.ok s, after)

/-- Every run of the command on a tree of files has one of the two outcomes, and the same one with
the check as without it. -/
theorem execute_outcome (options : SynthOptions) (tree : FileTree) :
    Outcome options tree (options.execute tree) ∧
      ∀ verify, { options with verify }.execute tree = options.execute tree := by
  constructor
  · rw [execute_eq]
    split
    · exact .refused fun _ h => by cases h
    next text hText =>
    split
    · next fault hFault => exact .refused (fails_container options text fault hFault)
    next s hContainer =>
    split
    · exact .refused fun _ h => by cases h
    next after hWrite =>
    obtain ⟨location, hWrote⟩ := FileTree.exists_wrote hWrite
    obtain ⟨c, hLoad, hVerify⟩ := exists_of_container hContainer
    exact .written hWrote hLoad hVerify
  · intro verify
    simp only [execute_eq, container_verify]

end DexForge.SynthOptions
