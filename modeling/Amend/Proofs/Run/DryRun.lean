import Amend.Proofs.Run.Isolation

/-!
# Dry runs foretell runs in place

A dry run leaves the tree alone, however its workers take turns (`rewriteInTurns_dryRun`). If no two
targets lead to one file and no worker dies, a run in either mode does with each target what is
foreseen for it (`Settings.Orderly.rewriteInTurns_eq`), and what is foreseen differs in one word
(`Start.foreseen_dryRun`). So the outcomes of the dry run are those of the run in place, and the
texts that it plans are those that the run in place leaves (`dryRun_foretells`).
-/

set_option autoImplicit false

namespace Amend

open FileTree StagedWrite

/-- The outcome as a dry run words it: what would be rewritten is planned. -/
def Outcome.asPlanned (o : Outcome) : Outcome :=
  if o.status = .rewritten then { o with status := .planned } else o

/-- The same settings in another mode. -/
def Settings.inMode (s : Settings) (mode : WriteMode) : Settings :=
  { s with mode }

/-! ## Single targets -/

section
variable (faults : Faults) (t : FileTree) (cwd : Location) (base p : Path) (set : RuleSet)

/-- The plan of a dry run is that of a run in place, settled. -/
theorem planFile_dryRun :
    planFile faults t cwd base .dryRun p set =
      match planFile faults t cwd base .inPlace p set with
      | .settled o => .settled o
      | .write result => .settled (.succeeded p .planned result) := by
  unfold planFile
  cases readSource faults t cwd (base ++ p) with
  | error f => rfl
  | ok old =>
    dsimp only
    split <;> rfl

theorem exists_planFile_dryRun : ∃ o, planFile faults t cwd base .dryRun p set = .settled o := by
  rw [planFile_dryRun]
  split <;> exact ⟨_, rfl⟩

theorem rewriteFile_dryRun : (rewriteFile faults t cwd base .dryRun p set).1 = t := by
  obtain ⟨o, ho⟩ := exists_planFile_dryRun faults t cwd base p set
  rw [rewriteFile, ho]

end

/-- In a run in place nothing that is settled was only planned, or rewritten. -/
theorem planFile_inPlace_settled {faults : Faults} {t : FileTree} {cwd : Location} {base p : Path}
    {set : RuleSet} {o : Outcome} (h : planFile faults t cwd base .inPlace p set = .settled o) :
    o.status ≠ .planned ∧ o.status ≠ .rewritten := by
  unfold planFile at h
  split at h
  · next f hf =>
    cases h
    rcases readSource_error hf with hstatus | hstatus <;> simp [Outcome.failed, hstatus]
  · dsimp only at h
    split at h <;> cases h
    simp [Outcome.succeeded]

/-! ## Dry runs leave the tree alone -/

section
variable (c : Catalog) (cwd : Location) (base : Path) (t : FileTree) {k : Worker}
  {workers : List Worker}

/-- A worker that has nothing on its hands: it has not begun, or it is finished. -/
def Worker.Idle (k : Worker) : Prop :=
  k.progress = .waiting ∨ ∃ o, k.progress = .finished o

/-- Whatever a worker of a dry run does in its turn, it leaves the tree alone and is idle after. -/
theorem Worker.Idle.take (h : k.Idle) (turn : Turn) :
    (k.take c cwd base .dryRun t turn).1 = t ∧ (k.take c cwd base .dryRun t turn).2.Idle := by
  obtain ⟨p, progress⟩ := k
  obtain ⟨o, ho⟩ := exists_planFile_dryRun noFaults t cwd base p (c.setFor p)
  obtain rfl | ⟨o', rfl⟩ : progress = .waiting ∨ ∃ o', progress = .finished o' := h
  · cases turn with
    | step => exact ⟨rfl, .inr ⟨o, by simp [Worker.take, Progress.step, ho, Progress.ofPlan]⟩⟩
    | death => exact ⟨rfl, .inr ⟨_, rfl⟩⟩
  · cases turn <;> exact ⟨rfl, .inr ⟨o', rfl⟩⟩

theorem takeTurn_dryRun (h : ∀ k ∈ workers, k.Idle) (turn : Turn) :
    (takeTurn c cwd base .dryRun t workers turn).1 = t ∧
      ∀ k ∈ (takeTurn c cwd base .dryRun t workers turn).2, k.Idle := by
  cases hk : workers[turn.worker]? with
  | none =>
    rw [takeTurn_eq_self _ _ _ _ _ _ hk]
    exact ⟨rfl, h⟩
  | some k =>
    obtain ⟨pre, post, rfl, hpre⟩ := exists_split hk
    rw [takeTurn_eq _ _ _ _ _ _ hpre]
    simp only [List.forall_mem_append, List.forall_mem_cons] at h ⊢
    obtain ⟨hbefore, hidle, hafter⟩ := h
    obtain ⟨htree, hidle'⟩ := hidle.take c cwd base t turn
    exact ⟨htree, hbefore, hidle', hafter⟩

theorem takeTurns_dryRun (turns : List Turn) (h : ∀ k ∈ workers, k.Idle) :
    (takeTurns c cwd base .dryRun turns t workers).1 = t ∧
      ∀ k ∈ (takeTurns c cwd base .dryRun turns t workers).2, k.Idle := by
  induction turns generalizing workers with
  | nil => exact ⟨rfl, h⟩
  | cons turn turns ih =>
    obtain ⟨htree, hidle⟩ := takeTurn_dryRun c cwd base t h turn
    simp only [takeTurns, htree]
    exact ih hidle

theorem finishEach_dryRun (h : ∀ k ∈ workers, k.Idle) :
    (finishEach c cwd base .dryRun workers t).1 = t := by
  induction workers with
  | nil => rfl
  | cons k workers ih =>
    obtain ⟨hk, hrest⟩ := List.forall_mem_cons.mp h
    have hfinish : (k.progress.finish c cwd base .dryRun k.target t).1 = t := by
      rcases hk with hk | ⟨o, hk⟩
      · rw [hk, Progress.finish_waiting, rewriteFile_dryRun]
      · rw [hk, Progress.finish_finished]
    simp only [finishEach, hfinish, ih hrest]

/-- In a dry run in order each target comes out as alone. -/
theorem rewriteEach_dryRun (targets : List Path) :
    rewriteEach c cwd base .dryRun targets t =
      (t, targets.map fun p => (rewriteFile noFaults t cwd base .dryRun p (c.setFor p)).2) := by
  induction targets with
  | nil => rfl
  | cons p targets ih => simp only [rewriteEach, rewriteFile_dryRun, ih, List.map_cons]

theorem rewriteAtOnce_dryRun (turns : List Turn) (targets : List Path) :
    (rewriteAtOnce c cwd base .dryRun turns targets t).1 = t := by
  have hwaiting : ∀ k ∈ targets.map (Worker.mk · .waiting), k.Idle := by simp [Worker.Idle]
  obtain ⟨htree, hidle⟩ := takeTurns_dryRun c cwd base t turns hwaiting
  rw [rewriteAtOnce]
  simp only [htree]
  exact finishEach_dryRun c cwd base t hidle

/-- A dry run leaves the tree as it is, however its workers take turns. -/
theorem rewriteInTurns_dryRun {s : Settings} (hs : s.mode = .dryRun) (turns : List Turn)
    (targets : List Path) : (s.rewriteInTurns turns c cwd targets t).1 = t := by
  unfold Settings.rewriteInTurns
  rw [hs]
  dsimp only
  split
  · exact rewriteAtOnce_dryRun ..
  · rw [rewriteEach_dryRun]

end

/-- A dry run is not checked, so it leaves the tree alone from its begin to its end, whether or not
someone looks on. -/
theorem run_dryRun {s : Settings} (hs : s.mode = .dryRun) (checker : Checker) (c : Catalog)
    (targets : List Path) (m : Machine) (turns : List Turn) :
    s.run checker c targets m turns =
        (⟨(s.rewriteInTurns turns c m.cwd targets m.tree).2, none⟩, m.tree) ∧
      ∀ dryRun, s.runWatched checker c targets dryRun m turns =
        (⟨(s.rewriteInTurns turns c m.cwd targets m.tree).2, none⟩, m.tree) := by
  have htree := rewriteInTurns_dryRun c m.cwd m.tree hs turns targets
  have hcheck (m : Machine) : s.check checker m = (none, m.tree) := by
    rw [Settings.check, hs]
  constructor
  · simp only [Settings.run, hcheck, htree]
  · intro dryRun
    simp only [Settings.runWatched, hcheck, htree, ite_self]

/-! ## Orderly runs -/

/-- What a run starts from. -/
def Settings.start (s : Settings) (c : Catalog) (m : Machine) : Start :=
  ⟨c, m.cwd, s.base, s.mode, m.tree⟩

/-- No two targets lead to one file. Where there is a worker for each, none of the targets asks for
a temporary file, and no worker dies. -/
structure Settings.Orderly (s : Settings) (turns : List Turn) (c : Catalog) (targets : List Path)
    (m : Machine) : Prop where
  separate : Separate m.tree m.cwd s.base (distinctTargets targets)
  avoids : s.parallel → ∀ p ∈ distinctTargets targets,
    m.tree.AvoidsTemps ((s.base ++ p).stage linkLimit m.cwd)
  alive : s.parallel → ∀ i reason,
    ¬ (s.start c m).DiesIn turns (distinctTargets targets) i reason

section
variable {s : Start} {set : Settings} {c : Catalog} {m : Machine} {turns : List Turn}
  {targets : List Path} {run : FileTree × List Outcome} {p : Path}

/-- Workers of whom none dies do with their targets what is foreseen. -/
theorem Start.Ended.all_foreseen (h : s.Ended turns targets run)
    (halive : ∀ i reason, ¬ s.DiesIn turns targets i reason) :
    run.2 = targets.map s.foreseen ∧ s.Wrote targets run.1 := by
  have houtcome : ∀ (i : Nat) p, targets[i]? = some p → run.2[i]? = some (s.foreseen p) :=
    fun i p hp => h.alive i p hp (halive i)
  constructor
  · refine List.ext_getElem? fun i => ?_
    rw [List.getElem?_map]
    cases hp : targets[i]? with
    | some p => exact houtcome i p hp
    | none =>
      rw [List.getElem?_eq_none_iff] at hp
      exact List.getElem?_eq_none (h.length ▸ hp)
  · obtain ⟨w, htree, hw⟩ := h.tree
    refine ⟨w, htree, fun l d => (hw l d).trans ?_⟩
    constructor
    · rintro ⟨i, p, hp, -, hd⟩
      exact ⟨p, List.mem_of_getElem? hp, hd⟩
    · rintro ⟨p, hp, hd⟩
      obtain ⟨i, hi⟩ := List.mem_iff_getElem?.mp hp
      exact ⟨i, p, hi, houtcome i p hi, hd⟩

/-- An orderly run does with each target what is foreseen, in order or with workers. -/
theorem Settings.Orderly.rewriteInTurns_eq (h : set.Orderly turns c targets m) :
    (set.rewriteInTurns turns c m.cwd targets m.tree).2 =
        (distinctTargets targets).map (set.start c m).foreseen ∧
      (set.start c m).Wrote (distinctTargets targets)
        (set.rewriteInTurns turns c m.cwd targets m.tree).1 := by
  unfold Settings.rewriteInTurns
  dsimp only
  split
  · next hparallel =>
    have hworkers := (Bool.and_eq_true_iff.mp hparallel).1
    exact ((set.start c m).ended ⟨h.separate.wellFormed, h.avoids hworkers, h.separate.apart⟩
      turns).all_foreseen (h.alive hworkers)
  · exact (set.start c m).inOrder_wrote h.separate

end

/-! ## What is foreseen in either mode -/

/-- The same start in another mode. -/
def Start.inMode (s : Start) (mode : WriteMode) : Start :=
  { s with mode }

section
variable {s : Start} {p : Path} {result : Rewrite}

theorem Start.plan_dryRun (s : Start) (p : Path) :
    (s.inMode .dryRun).plan p =
      match (s.inMode .inPlace).plan p with
      | .settled o => .settled o
      | .write result => .settled (.succeeded p .planned result) :=
  planFile_dryRun ..

/-- A text that is to be written is written, or the write fails. -/
theorem Start.foreseen_of_write (h : s.plan p = .write result) :
    s.foreseen p = .succeeded p .rewritten result ∨ (s.foreseen p).status = .writeFailed := by
  rw [Start.foreseen, h]
  dsimp only
  split
  · exact .inr rfl
  · exact .inl rfl

/-- What is foreseen for a target is the same in both modes, apart from the one word. -/
theorem Start.foreseen_dryRun (h : ((s.inMode .inPlace).foreseen p).status ≠ .writeFailed) :
    (s.inMode .dryRun).foreseen p = ((s.inMode .inPlace).foreseen p).asPlanned := by
  cases hplan : (s.inMode .inPlace).plan p with
  | settled o =>
    rw [Start.foreseen, Start.plan_dryRun, Start.foreseen, hplan]
    exact (if_neg (planFile_inPlace_settled hplan).2).symm
  | write result =>
    obtain hforeseen | hfailed := Start.foreseen_of_write hplan
    · rw [hforeseen, Start.foreseen, Start.plan_dryRun, hplan]
      rfl
    · exact absurd hfailed h

theorem Start.status_foreseen_ne_planned (s : Start) (p : Path) :
    ((s.inMode .inPlace).foreseen p).status ≠ .planned := by
  cases hplan : (s.inMode .inPlace).plan p with
  | settled o =>
    rw [Start.foreseen, hplan]
    exact (planFile_inPlace_settled hplan).1
  | write result =>
    intro hplanned
    obtain hforeseen | hfailed := Start.foreseen_of_write hplan
    · rw [hforeseen] at hplanned
      cases hplanned
    · cases hfailed.symm.trans hplanned

/-- What a dry run plans is to be written in a run in place. -/
theorem Start.plan_of_planned (h : ((s.inMode .dryRun).foreseen p).status = .planned) :
    ∃ result, (s.inMode .inPlace).plan p = .write result ∧
      (s.inMode .dryRun).foreseen p = .succeeded p .planned result := by
  rw [Start.foreseen, Start.plan_dryRun] at h ⊢
  cases hplan : (s.inMode .inPlace).plan p with
  | settled o =>
    rw [hplan] at h
    exact absurd h (planFile_inPlace_settled hplan).1
  | write result => exact ⟨result, rfl, rfl⟩

/-- Where there are no sealed directories, no write is foreseen to fail whose temporary file has a
path that can be followed. -/
theorem Start.status_foreseen_ne_writeFailed (hw : s.tree.WellFormed)
    (h : ∀ l, s.tree.get? l ≠ some (.dir true))
    (htemp : tempFault? s.cwd (s.base ++ p) = none) :
    (s.foreseen p).status ≠ .writeFailed := by
  rw [Start.foreseen]
  cases hplan : s.plan p with
  | settled o =>
    have hstatus := planFile_settled hplan
    intro heq
    simp [heq] at hstatus
  | write result =>
    obtain ⟨dir, name, F, old, hsite⟩ := s.exists_site hw hplan
    obtain ⟨isSealed, hdir⟩ := hsite.slot.isDir
    cases isSealed with
    | true => exact absurd hdir (h dir)
    | false =>
      rw [hsite.slot.create_eq (altered_refl (P := fun _ => False) s.tree) hdir,
        refusal?_eq_none htemp]
      intro hstatus
      cases hstatus

theorem Start.Wrote.readText_eq {t : FileTree} {done : List Path} (h : s.Wrote done t)
    (hw : s.tree.WellFormed) (hp : p ∈ done) (hplan : s.plan p = .write result)
    (hne : (s.foreseen p).status ≠ .writeFailed) :
    t.readText s.cwd (s.base ++ p) = .ok (.ofList result.text) := by
  obtain ⟨dir, name, F, old, hsite⟩ := s.exists_site hw hplan
  have hforeseen : s.foreseen p = .succeeded p .rewritten result :=
    (Start.foreseen_of_write hplan).resolve_right hne
  exact readText_of_entryAt (h.entryAt_of_writes hp (.intro hplan hforeseen hsite))

end

/-! ## The dry run and the run in place -/

/-- The outcomes of a dry run are those of the run in place, apart from the one word, if no write
fails there. The dry run leaves the tree alone and is not checked. Where it plans a new text, the
rules made it of the text that is there, and the run in place leaves this text. -/
theorem dryRun_foretells (set : Settings) (checker : Checker) (c : Catalog) (targets : List Path)
    (m : Machine) (turns turns' : List Turn)
    (hdry : (set.inMode .dryRun).Orderly turns c targets m)
    (hreal : (set.inMode .inPlace).Orderly turns' c targets m)
    (hwritten : ∀ o ∈ ((set.inMode .inPlace).rewriteInTurns turns' c m.cwd targets
      m.tree).2, o.status ≠ .writeFailed) :
    let dry := (set.inMode .dryRun).rewriteInTurns turns c m.cwd targets m.tree
    let real := (set.inMode .inPlace).rewriteInTurns turns' c m.cwd targets m.tree
    dry.2 = real.2.map Outcome.asPlanned ∧
    (∀ o ∈ real.2, o.status ≠ .planned) ∧
    dry.1 = m.tree ∧
    (set.inMode .dryRun).run checker c targets m turns = (⟨dry.2, none⟩, m.tree) ∧
    (∀ dryRun, (set.inMode .dryRun).runWatched checker c targets dryRun m turns =
      (⟨dry.2, none⟩, m.tree)) ∧
    ∀ o ∈ dry.2, o.status = .planned →
      ∃ old, m.tree.readText m.cwd (set.base ++ o.file) = .ok old ∧
        o = .succeeded o.file .planned
          (Rule.applyAll (c.setFor o.file).rules old.toList) ∧
        real.1.readText m.cwd (set.base ++ o.file) =
          .ok (.ofList (Rule.applyAll (c.setFor o.file).rules old.toList).text) := by
  intro dry real
  -- both runs start from `s`, and each does with a target what is foreseen for it there
  let s : Start := set.start c m
  have hrun := run_dryRun (s := set.inMode .dryRun) rfl checker c targets m turns
  have houtcomes : dry.2 = (distinctTargets targets).map (s.inMode .dryRun).foreseen :=
    hdry.rewriteInTurns_eq.1
  obtain ⟨houtcomes', hwrote⟩ : real.2 =
      (distinctTargets targets).map (s.inMode .inPlace).foreseen ∧
        (s.inMode .inPlace).Wrote (distinctTargets targets) real.1 := hreal.rewriteInTurns_eq
  have hwritten : ∀ p ∈ distinctTargets targets,
      ((s.inMode .inPlace).foreseen p).status ≠ .writeFailed := fun p hp =>
    hwritten _ (houtcomes' ▸ List.mem_map_of_mem hp)
  refine ⟨?_, ?_, rewriteInTurns_dryRun c m.cwd m.tree rfl turns targets, hrun.1, hrun.2, ?_⟩
  · rw [houtcomes, houtcomes', List.map_map]
    exact List.map_congr_left fun p hp => Start.foreseen_dryRun (hwritten p hp)
  · rw [houtcomes']
    exact List.forall_mem_map.mpr fun p _ => s.status_foreseen_ne_planned p
  · rw [houtcomes]
    refine List.forall_mem_map.mpr fun p hp hplanned => ?_
    obtain ⟨result, hplan, hforeseen⟩ := Start.plan_of_planned hplanned
    obtain ⟨-, old, hold, rfl, -⟩ := planFile_eq_write hplan
    rw [hforeseen]
    exact ⟨old, hold, rfl, hwrote.readText_eq hreal.separate.wellFormed hp hplan (hwritten p hp)⟩

/-- A run with a worker for each target, that would be checked. -/
def workersHere : Settings :=
  ⟨⟨"."⟩, [], .builtIn, some "true", .inPlace, true⟩

/-- Two files in a directory where programs may write. -/
def sideBySideMachine : Machine :=
  ⟨sideBySide, ["p"], none⟩

theorem sideBySide_orderly (mode : WriteMode) (steps : List Turn)
    (h : ∀ turn ∈ steps, ∃ j, turn = .step j) :
    (workersHere.inMode mode).Orderly steps sideBySideRules [⟨"a.rs"⟩, ⟨"b.rs"⟩]
      sideBySideMachine :=
  ⟨sideBySide_separate, fun _ => sideBySide_independent.avoids, fun _ i reason hdies =>
    Start.not_diesIn_nil _ _ i reason ((diesIn_append_steps h).mp hdies)⟩

theorem sideBySide_unsealed (l : Location) : sideBySide.get? l ≠ some (.dir true) := by
  intro hl
  have hne : l ≠ [] := by
    rintro rfl
    cases hl
  have hmem := mem_of_get? hne hl
  simp [sideBySide] at hmem

/-- The dry run for both targets plans what the run in place does, whatever the turns. -/
theorem sideBySide_foretold :
    let dry := (workersHere.inMode .dryRun).rewriteInTurns [.step 1, .step 0]
      sideBySideRules ["p"] [⟨"a.rs"⟩, ⟨"b.rs"⟩] sideBySide
    let real := (workersHere.inMode .inPlace).rewriteInTurns [.step 0, .step 1, .step 1, .step 0]
      sideBySideRules ["p"] [⟨"a.rs"⟩, ⟨"b.rs"⟩] sideBySide
    dry.2 = real.2.map Outcome.asPlanned ∧ dry.1 = sideBySide := by
  intro dry real
  have hreal := sideBySide_orderly .inPlace [.step 0, .step 1, .step 1, .step 0]
    (by simp)
  have hwritten : ∀ o ∈ real.2, o.status ≠ .writeFailed := by
    have houtcomes : real.2 = _ := hreal.rewriteInTurns_eq.1
    rw [houtcomes]
    refine List.forall_mem_map.mpr fun p hp =>
      Start.status_foreseen_ne_writeFailed sideBySide_separate.wellFormed sideBySide_unsealed ?_
    have htargets : p ∈ [(⟨"a.rs"⟩ : Path), ⟨"b.rs"⟩] := mem_of_mem_distinctTargets hp
    simp only [List.mem_cons, List.not_mem_nil, or_false] at htargets
    rcases htargets with rfl | rfl <;> exact Path.fault?_eq_none.mpr (by decide)
  have h := dryRun_foretells workersHere (fun m _ _ => (⟨"true", true, some 0, ""⟩, m.tree))
    sideBySideRules [⟨"a.rs"⟩, ⟨"b.rs"⟩] sideBySideMachine [.step 1, .step 0] _
    (sideBySide_orderly .dryRun _ (by simp)) hreal hwritten
  exact ⟨h.1, h.2.2.1⟩

/-- A target that leads to no file may fail for one reason in a dry run and for another in place,
where the target before it was rewritten. -/
theorem maze_not_foretold :
    let run := fun mode => (inPlaceHere.inMode mode).rewrite mazeRules [] [⟨"c"⟩, ⟨"d/c/x"⟩] maze
    (∀ F d, maze.entryAt [] ((⟨"."⟩ : Path) ++ (⟨"d/c/x"⟩ : Path)) ≠ .ok (F, .file d)) ∧
      (∀ o ∈ (run .inPlace).2, o.status ≠ .writeFailed) ∧
      (run .dryRun).2 ≠ (run .inPlace).2.map Outcome.asPlanned := by
  intro run
  obtain ⟨t, result, hreal⟩ := rewrite_maze
  have hplace : run .inPlace = _ := hreal
  have hdry : (run .dryRun).2[1]? =
      some (.failed ⟨"d/c/x"⟩ (.readFailure ⟨"./d/c/x"⟩ .tooManyLinks)) := by
    simp only [run, Settings.rewrite_eq, distinctTargets_maze, Settings.inMode, inPlaceHere,
      rewriteEach_dryRun, List.map_cons, rewriteFile_maze_cut, List.getElem?_cons_succ,
      List.getElem?_cons_zero]
  refine ⟨fun F d => ?_, ?_, fun heq => ?_⟩
  · intro h
    cases entryAt_maze.symm.trans h
  · rw [hplace]
    simp [Outcome.succeeded, Outcome.failed, OutcomeStatus.ofFailure]
  · rw [heq, hplace, List.map_cons, List.map_cons, List.getElem?_cons_succ,
      List.getElem?_cons_zero] at hdry
    revert hdry
    decide

end Amend
