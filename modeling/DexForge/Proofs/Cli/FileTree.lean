import DexForge.Cli.FileTree
import DexForge.Proofs.Control.Except

/-! # What writing a file changes

A path is followed through directories that are there already, so the file at its end is no reason
for a directory to be there or not. Writing it leaves every directory, and with them what every path
leads to. A command that runs on a tree reads and writes as the tree does.
-/
set_option autoImplicit false

namespace DexForge.FileTree

variable {tree : FileTree} {location other directory : List String} {bytes : Bytes}

@[simp] theorem get?_put_self : (tree.put location bytes).get? location = some bytes := by
  rw [get?, put, List.lookup_cons_self]

theorem get?_put_of_ne (h : other ≠ location) :
    (tree.put location bytes).get? other = tree.get? other := by
  rw [get?, get?, put, List.lookup_cons, beq_eq_false_iff_ne.mpr h]
  change (tree.files.filter _).lookup other = _
  induction tree.files with
  | nil => rfl
  | cons entry files ih =>
    by_cases hEntry : entry.1 = location
    · have hOther : (other == entry.1) = false := beq_eq_false_iff_ne.mpr (hEntry ▸ h)
      rw [List.filter_cons_of_neg (by simpa using hEntry), ih, List.lookup_cons, hOther]
    · rw [List.filter_cons_of_pos (by simpa using hEntry), List.lookup_cons, List.lookup_cons, ih]

theorem isDirectory_iff : tree.isDirectory directory = true ↔
    directory = root ∨ (∀ part ∈ directory, part = "..") ∨
      ∃ entry ∈ tree.files, directory <+: entry.1 ∧ directory ≠ entry.1 := by
  simp only [isDirectory, Bool.or_eq_true, beq_iff_eq, List.all_eq_true, List.any_eq_true,
    Bool.and_eq_true, List.isPrefixOf_iff_prefix, bne_iff_ne, or_assoc]

def Reached (tree : FileTree) (location : List String) : Prop :=
  ∀ above, above <+: location → above ≠ location → tree.isDirectory above = true

def Rooted (tree : FileTree) (directory : List String) : Prop :=
  ∀ above, above <+: directory → tree.isDirectory above = true

theorem isDirectory_nil : tree.isDirectory [] = true := by
  rw [isDirectory_iff]
  exact Or.inr (Or.inl fun _ hPart => absurd hPart List.not_mem_nil)

theorem rooted_nil : Rooted tree [] := by
  intro above hAbove
  rw [List.prefix_nil.mp hAbove]
  exact isDirectory_nil

theorem Rooted.child (h : Rooted tree directory) {part : String}
    (hPart : tree.isDirectory (directory ++ [part]) = true) : Rooted tree (directory ++ [part]) := by
  intro above hAbove
  obtain rfl | hAbove := List.prefix_concat_iff.mp hAbove
  · exact hPart
  · exact h above hAbove

theorem Rooted.reached (h : Rooted tree directory) (part : String) :
    Reached tree (directory ++ [part]) := by
  intro above hAbove hNe
  exact h above ((List.prefix_concat_iff.mp hAbove).resolve_left hNe)

theorem rooted_root : Rooted tree root := by
  have hRoot : tree.isDirectory root = true := isDirectory_iff.mpr (Or.inl rfl)
  exact rooted_nil.child hRoot

theorem Rooted.parent (h : Rooted tree directory) : Rooted tree (parent directory) := by
  rw [FileTree.parent]
  split
  · exact rooted_root
  split
  · next hUp =>
    apply h.child
    rw [isDirectory_iff]
    refine Or.inr (Or.inl fun part hPart => ?_)
    rw [List.mem_append, List.mem_singleton] at hPart
    obtain hPart | rfl := hPart
    · exact beq_iff_eq.mp (List.all_eq_true.mp hUp part hPart)
    · rfl
  · intro above hAbove
    exact h above (hAbove.trans directory.dropLast_prefix)

theorem reached_of_walk {parts : List String} {slashed : Bool} (h : Rooted tree directory)
    (hWalk : walk tree directory parts = .ok (.named location slashed)) : Reached tree location := by
  induction parts generalizing directory with
  | nil => cases hWalk
  | cons part rest ih =>
    rw [walk] at hWalk
    split at hWalk
    · exact ih h hWalk
    split at hWalk
    · exact ih h.parent hWalk
    simp only at hWalk
    split at hWalk
    · next hDirectory => exact ih (h.child hDirectory) hWalk
    split at hWalk
    · cases hWalk
      exact h.reached part
    · split at hWalk
      · cases hWalk
      · split at hWalk <;> cases hWalk

/-- The same directories are found whatever is written at the end of a path. -/
theorem isDirectory_put (h : Reached tree location) :
    (tree.put location bytes).isDirectory directory = tree.isDirectory directory := by
  rw [Bool.eq_iff_iff]
  constructor
  · intro hAfter
    obtain hRoot | hUp | ⟨entry, hEntry, hAbove, hNe⟩ := isDirectory_iff.mp hAfter
    · exact isDirectory_iff.mpr (Or.inl hRoot)
    · exact isDirectory_iff.mpr (Or.inr (Or.inl hUp))
    · obtain rfl | hOld := List.mem_cons.mp hEntry
      · exact h directory hAbove hNe
      · exact isDirectory_iff.mpr (Or.inr (Or.inr ⟨entry, (List.mem_filter.mp hOld).1, hAbove, hNe⟩))
  · intro hBefore
    obtain hRoot | hUp | ⟨entry, hEntry, hAbove, hNe⟩ := isDirectory_iff.mp hBefore
    · exact isDirectory_iff.mpr (Or.inl hRoot)
    · exact isDirectory_iff.mpr (Or.inr (Or.inl hUp))
    · refine isDirectory_iff.mpr (Or.inr (Or.inr ?_))
      by_cases hSame : entry.1 = location
      · exact ⟨(location, bytes), List.mem_cons_self, hSame ▸ hAbove, hSame ▸ hNe⟩
      · exact ⟨entry, List.mem_cons_of_mem _ (List.mem_filter.mpr ⟨hEntry, by simpa using hSame⟩),
          hAbove, hNe⟩

variable {after : FileTree} {target : Target} {path : String}

/-- With the same directories a path leads to the same place; only why it leads nowhere may differ. -/
theorem walk_eq_ok_iff (h : ∀ directory, after.isDirectory directory = tree.isDirectory directory)
    {parts : List String} :
    walk after directory parts = .ok target ↔ walk tree directory parts = .ok target := by
  induction parts generalizing directory with
  | nil => rfl
  | cons part rest ih =>
    rw [walk, walk]
    split
    · exact ih
    split
    · exact ih
    simp only [h]
    split
    · exact ih
    split
    · rfl
    split
    · rfl
    · constructor
      all_goals
        intro hOk
        split at hOk <;> cases hOk

theorem resolve_eq_ok_iff
    (h : ∀ directory, after.isDirectory directory = tree.isDirectory directory) :
    after.resolve path = .ok target ↔ tree.resolve path = .ok target := by
  rw [resolve, resolve]
  split
  · rfl
  split
  · rfl
  · exact walk_eq_ok_iff h

theorem reached_of_resolve {slashed : Bool}
    (h : tree.resolve path = .ok (.named location slashed)) : Reached tree location := by
  rw [resolve] at h
  split at h
  · cases h
  split at h
  · cases h
  refine reached_of_walk ?_ h
  split
  · exact rooted_root
  · exact rooted_nil

theorem read_eq_ok_iff : tree.read path = .ok bytes ↔
    ∃ location, tree.resolve path = .ok (.named location false) ∧
      isTooLong (location.getLastD "") = false ∧ tree.get? location = some bytes := by
  rw [read]
  constructor
  · intro hRead
    split at hRead
    · cases hRead
    · cases hRead
    next location slashed hTarget =>
    split at hRead
    · cases hRead
    next hName =>
    split at hRead
    · cases hRead
    next contents hFile =>
    split at hRead
    · cases hRead
    next hPlain =>
    cases hRead
    rw [eq_false_of_ne_true hPlain] at hTarget
    exact ⟨location, hTarget, eq_false_of_ne_true hName, hFile⟩
  · rintro ⟨location, hTarget, hName, hFile⟩
    simp only [hTarget, hName, hFile, Bool.false_eq_true, if_false]

theorem write_eq_ok_iff : tree.write path bytes = .ok after ↔
    ∃ location, tree.resolve path = .ok (.named location false) ∧
      isTooLong (location.getLastD "") = false ∧ tree.put location bytes = after := by
  rw [write]
  constructor
  · intro hWrite
    split at hWrite
    · cases hWrite
    · cases hWrite
    next location slashed hTarget =>
    split at hWrite
    · cases hWrite
    next hPlain =>
    split at hWrite
    · cases hWrite
    next hName =>
    rw [eq_false_of_ne_true hPlain] at hTarget
    exact ⟨location, hTarget, eq_false_of_ne_true hName, Except.ok.inj hWrite⟩
  · rintro ⟨location, hTarget, hName, rfl⟩
    simp only [hTarget, hName, Bool.false_eq_true, if_false]

/-- The file at `location`, to which the path leads, holds the bytes; every other file is as it
was, and is read as it was. -/
structure Wrote (tree after : FileTree) (path : String) (bytes : Bytes) (location : List String) :
    Prop where
  target : tree.resolve path = .ok (.named location false)
  stored : after.get? location = some bytes
  readBack : after.read path = .ok bytes
  others : ∀ other, other ≠ location → after.get? other = tree.get? other
  reads : ∀ other, tree.resolve other ≠ .ok (.named location false) →
    ∀ contents, after.read other = .ok contents ↔ tree.read other = .ok contents

theorem exists_wrote (h : tree.write path bytes = .ok after) :
    ∃ location, Wrote tree after path bytes location := by
  obtain ⟨location, hTarget, hName, rfl⟩ := write_eq_ok_iff.mp h
  have hReached := reached_of_resolve hTarget
  have hSame : ∀ {other target}, (tree.put location bytes).resolve other = .ok target ↔
      tree.resolve other = .ok target := resolve_eq_ok_iff fun _ => isDirectory_put hReached
  refine ⟨location, hTarget, get?_put_self, ?_, fun _ => get?_put_of_ne, ?_⟩
  · exact read_eq_ok_iff.mpr ⟨location, hSame.mpr hTarget, hName, get?_put_self⟩
  · intro other hOther contents
    rw [read_eq_ok_iff, read_eq_ok_iff]
    refine exists_congr fun place => ?_
    rw [hSame]
    refine and_congr_right fun hPlace => ?_
    have hNe : place ≠ location := fun hEq => hOther (hEq ▸ hPlace)
    rw [get?_put_of_ne hNe]

section Access

variable {ε ε' α β : Type}

theorem run_bind (x : ExceptT ε (StateM FileTree) α) (f : α → ExceptT ε (StateM FileTree) β)
    (tree : FileTree) : (x >>= f).run tree =
      match x.run tree with
      | (.error fault, after) => (.error fault, after)
      | (.ok a, after) => (f a).run after := by
  change ExceptT.bindCont f (x.run tree).1 (x.run tree).2 = _
  obtain ⟨result, after⟩ := x.run tree
  cases result <;> rfl

theorem run_adapt (g : ε → ε') (x : ExceptT ε (StateM FileTree) α) (tree : FileTree) :
    (x.adapt g).run tree = ((x.run tree).1.mapError g, (x.run tree).2) := rfl

theorem run_lift (x : Except ε α) (tree : FileTree) :
    (liftM x : ExceptT ε (StateM FileTree) α).run tree = (x, tree) := rfl

theorem run_read (tree : FileTree) (path : String) :
    (access.read path).run tree = (tree.read path, tree) := rfl

theorem run_write (tree : FileTree) (path : String) (bytes : Bytes) :
    (access.write path bytes).run tree = match tree.write path bytes with
      | .error fault => (.error fault, tree)
      | .ok after => (.ok (), after) := rfl

theorem run_readText (tree : FileTree) (path : String) :
    ∃ read, (access.readText path).run tree = (read, tree) := by
  rw [FileAccess.readText, run_bind, run_read]
  cases tree.read path with
  | error fault => exact ⟨_, rfl⟩
  | ok bytes =>
    dsimp only
    cases String.fromUTF8? ⟨bytes⟩ <;> exact ⟨_, rfl⟩

end Access

end DexForge.FileTree
