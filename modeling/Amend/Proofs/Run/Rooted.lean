import Amend.Proofs.Diagnosis.CheckProgram
import Amend.Proofs.Run.AllOrNothing
import Amend.Proofs.Run.Interleaving
import Amend.Shell.Run

/-!
# Runs in a directory that is named from the root

Where the base of a run is an absolute path, so are the paths of its targets, of the temporary files
for them and of the directory of its check. None of them is read from the working directory, so the
run is the same wherever it is started (`Settings.run_of_isAbsolute`), whatever turns its workers
take. What carries this through a worker's operations is that it has only absolute paths at hand
(`Progress.Rooted`).
-/

set_option autoImplicit false

namespace Amend

/-! ## Absolute paths -/

namespace FileTree

variable {t : FileTree} {p : Path}

theorem entryAt_of_isAbsolute (h : p.isAbsolute = true) (l l' : Location) :
    t.entryAt l p = t.entryAt l' p := by
  simp only [entryAt, follow, h, if_true]

theorem pathExists_of_isAbsolute (h : p.isAbsolute = true) (l l' : Location) :
    t.pathExists l p = t.pathExists l' p := by
  rw [pathExists, pathExists, entryAt_of_isAbsolute h l l']

theorem readText_of_isAbsolute (h : p.isAbsolute = true) (l l' : Location) :
    t.readText l p = t.readText l' p := by
  rw [readText, readText, fileAt, fileAt, entryAt_of_isAbsolute h l l']

theorem directoryAt_of_isAbsolute (h : p.isAbsolute = true) (l l' : Location) :
    t.directoryAt l p = t.directoryAt l' p := by
  rw [directoryAt, directoryAt, entryAt_of_isAbsolute h l l']

end FileTree

theorem Path.isAbsolute_append_left {base : Path} (h : base.isAbsolute = true) (p : Path) :
    (base ++ p).isAbsolute = true := by
  rw [isAbsolute_append, h, Bool.true_or]

theorem Path.slash_mem_of_isAbsolute {p : Path} (h : p.isAbsolute = true) :
    '/' ∈ p.text.toList :=
  List.mem_of_head? (by simpa [isAbsolute] using h)

/-- The directory of a file with an absolute path has one, too. The root, which has no directory of
its own, is no file. -/
theorem StagedWrite.isAbsolute_directory {t : FileTree} {cwd : Location} {p : Path}
    (h : p.isAbsolute = true) (hfile : t.isFile cwd p = true) :
    (directory p).isAbsolute = true := by
  obtain ⟨first, middle, last, hs⟩ := Path.exists_ends_of_slash (Path.slash_mem_of_isAbsolute h)
  have hlast : Path.isIdle last = false := by
    rw [← Bool.not_eq_true]
    intro hidle
    rw [FileTree.isFile_of_asksDirectory (Path.asksDirectory_of_idle hs hidle)] at hfile
    cases hfile
  rw [← List.cons_append] at hs
  rcases Path.directory_eq hs hlast with
    ⟨-, rest, -, hd⟩ | ⟨hrelative, -⟩ | ⟨hrelative, -⟩
  · rw [hd, Path.isAbsolute, String.toList_ofList]
    split
    · rfl
    · next hne =>
      rw [Path.join_cons hne]
      rfl
  · rw [h] at hrelative
    cases hrelative
  · rw [h] at hrelative
    cases hrelative

/-- Where a target spells the root, its temporary file has one path from any working directory. -/
theorem StagedWrite.tempPath_of_isAbsolute {p : Path} (h : (directory p).isAbsolute = true)
    (cwd cwd' : Location) (name : String) : tempPath cwd p name = tempPath cwd' p name := by
  rw [tempPath, tempPath, Path.append_of_isAbsolute h, Path.append_of_isAbsolute h]

theorem StagedWrite.create_of_isAbsolute {t : FileTree} {p : Path}
    (h : (directory p).isAbsolute = true) (cwd cwd' : Location) :
    create t cwd p = create t cwd' p := by
  unfold create tempFault? refusal
  rw [tempPath_of_isAbsolute h cwd cwd', FileTree.entryAt_of_isAbsolute h cwd cwd']

/-! ## Workers -/

section
variable {c : Catalog} {cwd : Location} {base p : Path} {mode : WriteMode} {t : FileTree}
  {pr : Progress} {k : Worker} {workers : List Worker}

theorem planFile_of_isAbsolute (h : base.isAbsolute = true) (cwd' : Location) (set : RuleSet) :
    planFile noFaults t cwd base mode p set = planFile noFaults t cwd' base mode p set := by
  have hread := FileTree.readText_of_isAbsolute (t := t) (Path.isAbsolute_append_left h p) cwd cwd'
  rw [planFile, planFile, readSource, readSource, hread]

/-- The paths that a worker has at hand start at the root. -/
def Progress.Rooted (base p : Path) : Progress → Prop
  | .waiting | .finished _ => True
  | .computed _ => (StagedWrite.directory (base ++ p)).isAbsolute = true
  | .created w _ | .filled w _ | .readied w _ => w.target.isAbsolute = true

theorem rooted_ofPlan (h : base.isAbsolute = true) (set : RuleSet) :
    (Progress.ofPlan (planFile noFaults t cwd base mode p set)).Rooted base p := by
  cases hplan : planFile noFaults t cwd base mode p set with
  | settled o => trivial
  | write result =>
    obtain ⟨-, old, hold, -⟩ := planFile_eq_write hplan
    obtain ⟨loc, d, hd, -⟩ := FileTree.exists_entryAt_of_readText hold
    exact StagedWrite.isAbsolute_directory (Path.isAbsolute_append_left h p)
      (FileTree.isFile_iff.mpr ⟨loc, d, hd⟩)

/-- The operations of a worker with absolute paths are the same from any working directory. -/
theorem Progress.Rooted.step (h : pr.Rooted base p) (hb : base.isAbsolute = true) (c : Catalog)
    (cwd cwd' : Location) (mode : WriteMode) (t : FileTree) :
    pr.step c cwd base mode p t = pr.step c cwd' base mode p t ∧
      (pr.step c cwd base mode p t).2.Rooted base p := by
  have hp := Path.isAbsolute_append_left hb p
  cases pr with
  | waiting =>
    simp only [Progress.step]
    exact ⟨by rw [planFile_of_isAbsolute hb cwd'], rooted_ofPlan hb _⟩
  | computed result =>
    have hcreate := StagedWrite.create_of_isAbsolute (t := t) (p := base ++ p) h cwd cwd'
    refine ⟨by simp only [Progress.step, hcreate], ?_⟩
    simp only [Progress.step]
    cases hw : StagedWrite.create t cwd (base ++ p) with
    | error e => trivial
    | ok created =>
      obtain ⟨-, dir, -, htarget, -⟩ := StagedWrite.create_eq_ok.mp hw
      exact (congrArg (·.target.isAbsolute) htarget).trans hp
  | created w result => exact ⟨rfl, h⟩
  | filled w result =>
    have hcopy : w.copyMode t cwd = w.copyMode t cwd' := by
      rw [StagedWrite.copyMode, StagedWrite.copyMode, FileTree.entryAt_of_isAbsolute h cwd cwd']
    exact ⟨by simp only [Progress.step, hcopy], h⟩
  | readied w result =>
    have hstart : w.target.isAbsolute = true := h
    have hreplace : w.replace t cwd = w.replace t cwd' := by
      unfold StagedWrite.replace
      simp only [hstart, if_true]
    refine ⟨by simp only [Progress.step, hreplace], ?_⟩
    simp only [Progress.step]
    split <;> trivial
  | finished o => exact ⟨rfl, h⟩

theorem Progress.Rooted.die (h : pr.Rooted base p) (reason : String) :
    (pr.die p reason t).2.Rooted base p := by
  cases pr with
  | waiting | computed | created | filled | readied => trivial
  | finished o => exact h

/-- A worker whose paths start at the root. -/
def Worker.Rooted (base : Path) (k : Worker) : Prop :=
  k.progress.Rooted base k.target

theorem Worker.Rooted.take (h : k.Rooted base) (hb : base.isAbsolute = true) (c : Catalog)
    (cwd cwd' : Location) (mode : WriteMode) (t : FileTree) (turn : Turn) :
    k.take c cwd base mode t turn = k.take c cwd' base mode t turn ∧
      (k.take c cwd base mode t turn).2.Rooted base := by
  cases turn with
  | step i =>
    obtain ⟨heq, hrooted⟩ := Progress.Rooted.step h hb c cwd cwd' mode t
    exact ⟨by simp only [Worker.take, heq], hrooted⟩
  | death i reason => exact ⟨rfl, Progress.Rooted.die h reason⟩

theorem rooted_takeTurn (h : ∀ k ∈ workers, k.Rooted base) (hb : base.isAbsolute = true)
    (c : Catalog) (cwd cwd' : Location) (mode : WriteMode) (t : FileTree) (turn : Turn) :
    takeTurn c cwd base mode t workers turn = takeTurn c cwd' base mode t workers turn ∧
      ∀ k ∈ (takeTurn c cwd base mode t workers turn).2, k.Rooted base := by
  cases hk : workers[turn.worker]? with
  | none =>
    rw [takeTurn_eq_self _ _ _ _ _ _ hk, takeTurn_eq_self _ _ _ _ _ _ hk]
    exact ⟨rfl, h⟩
  | some k =>
    obtain ⟨pre, post, rfl, hpre⟩ := exists_split hk
    rw [takeTurn_eq _ _ _ _ _ _ hpre, takeTurn_eq _ _ _ _ _ _ hpre]
    obtain ⟨heq, hrooted⟩ := Worker.Rooted.take (h k (by simp)) hb c cwd cwd' mode t turn
    refine ⟨by rw [heq], fun k' hk' => ?_⟩
    simp only [List.mem_append, List.mem_cons] at h hk'
    rcases hk' with hk' | rfl | hk'
    · exact h k' (.inl hk')
    · exact hrooted
    · exact h k' (.inr (.inr hk'))

/-- Whatever turns they take, workers with absolute paths do the same from any working
directory. -/
theorem takeTurns_of_rooted (h : ∀ k ∈ workers, k.Rooted base) (hb : base.isAbsolute = true)
    (cwd' : Location) (turns : List Turn) :
    takeTurns c cwd base mode turns t workers = takeTurns c cwd' base mode turns t workers := by
  induction turns generalizing t workers with
  | nil => rfl
  | cons turn turns ih =>
    obtain ⟨heq, hrooted⟩ := rooted_takeTurn h hb c cwd cwd' mode t turn
    simp only [takeTurns]
    rw [← heq]
    exact ih hrooted

/-- To finish one after the other is to take turns, so this is the same, too. -/
theorem rewriteAtOnce_of_isAbsolute (hb : base.isAbsolute = true) (cwd cwd' : Location)
    (turns : List Turn) (targets : List Path) (t : FileTree) :
    rewriteAtOnce c cwd base mode turns targets t =
      rewriteAtOnce c cwd' base mode turns targets t := by
  have hstart : ∀ k ∈ targets.map fun target => (⟨target, .waiting⟩ : Worker), k.Rooted base := by
    intro k hk
    obtain ⟨target, -, rfl⟩ := List.mem_map.mp hk
    trivial
  have hturns : ∀ turns,
      takeTurns c cwd base mode turns t _ = takeTurns c cwd' base mode turns t _ :=
    fun turns => takeTurns_of_rooted hstart hb cwd' turns
  unfold rewriteAtOnce
  dsimp only
  rw [← hturns]
  generalize hafter : takeTurns c cwd base mode turns t _ = after
  obtain ⟨ended, hend, hmap⟩ := takeTurns_finishing c cwd base mode [] after.2 after.1
  obtain ⟨ended', hend', hmap'⟩ := takeTurns_finishing c cwd' base mode [] after.2 after.1
  have hall := hturns (turns ++ finishing 0 after.2.length)
  rw [takeTurns_append, takeTurns_append, ← hturns turns, hafter] at hall
  have hsame := hend.symm.trans (hall.trans hend')
  obtain ⟨htree, hended⟩ := Prod.ext_iff.mp hsame
  refine Prod.ext htree (List.map_injective_iff.mpr (fun _ _ h => Progress.finished.inj h) ?_)
  rw [← hmap, ← hmap']
  exact congrArg (List.map Worker.progress) hended

end

/-! ## Runs -/

/-- What a check command says, and the tree that it leaves, depends on the tree, the search path and
the directory that it is started in, and on nothing else. -/
def Checker.ByDirectory (checker : Checker) : Prop :=
  ∀ (m m' : Machine) (p p' : Path) (command : String), m.tree = m'.tree →
    m.searchPath = m'.searchPath → m.tree.directoryAt m.cwd p = m'.tree.directoryAt m'.cwd p' →
    checker m p command = checker m' p' command

theorem Shell.verify_byDirectory : Checker.ByDirectory Shell.verify := by
  rintro ⟨t, cwd, path⟩ ⟨t', cwd', path'⟩ p p' command rfl rfl hdir
  unfold verify
  dsimp only at hdir ⊢
  rw [hdir]

namespace Settings

variable {s : Settings}

theorem rewriteInTurns_of_isAbsolute (h : s.base.isAbsolute = true) (turns : List Turn)
    (c : Catalog) (cwd cwd' : Location) (targets : List Path) (t : FileTree) :
    s.rewriteInTurns turns c cwd targets t = s.rewriteInTurns turns c cwd' targets t := by
  unfold rewriteInTurns
  dsimp only
  rw [rewriteAtOnce_of_isAbsolute h cwd cwd', ← rewriteAtOnce_nil, ← rewriteAtOnce_nil,
    rewriteAtOnce_of_isAbsolute h cwd cwd']

theorem check_of_isAbsolute (h : s.base.isAbsolute = true) {checker : Checker}
    (hchecker : checker.ByDirectory) (m : Machine) (cwd : Location) :
    s.check checker { m with cwd } = s.check checker m := by
  unfold check
  split
  · rw [hchecker { m with cwd } m s.base s.base _ rfl rfl
      (FileTree.directoryAt_of_isAbsolute h cwd m.cwd)]
  · rfl

/-- A run with an absolute base is the same from any working directory. -/
theorem run_of_isAbsolute (h : s.base.isAbsolute = true) {checker : Checker}
    (hchecker : checker.ByDirectory) (c : Catalog) (targets : List Path) (m : Machine)
    (cwd : Location) (turns : List Turn) :
    s.run checker c targets { m with cwd } turns = s.run checker c targets m turns := by
  unfold run
  dsimp only
  rw [s.rewriteInTurns_of_isAbsolute h turns c cwd m.cwd,
    check_of_isAbsolute h hchecker { m with tree := _ } cwd]

end Settings

end Amend
