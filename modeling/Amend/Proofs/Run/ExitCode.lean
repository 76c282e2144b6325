import Amend.Performance
import Amend.Proofs.Landing
import Amend.Proofs.Run.Interleaving

/-!
# How runs end

A run fails exactly if its configuration or its catalog does not load, and then it has changed
nothing and started no check. Otherwise each target has one outcome, and the exit code says whether
all went well (`undertake_run`). This is so whatever turns the workers of a parallel run take.
-/

set_option autoImplicit false

namespace Amend

/-! ## One outcome for each target -/

section
variable {c : Catalog} {cwd : Location} {base : Path} {mode : WriteMode} {t : FileTree}
  {k : Worker} {s : Start} {targets : List Path}

theorem file_of_planFile {faults : Faults} {target : Path} {set : RuleSet} {o : Outcome}
    (h : planFile faults t cwd base mode target set = .settled o) : o.file = target := by
  unfold planFile at h
  split at h
  · cases h
    rfl
  · dsimp only at h
    split at h
    · cases h
      rfl
    · cases mode <;> cases h
      rfl

/-- Once the worker is finished, its outcome names its target. -/
def Worker.Named (k : Worker) : Prop :=
  ∀ o, k.progress = .finished o → o.file = k.target

theorem Start.named_after (s : Start) (turns : List Turn) (targets : List Path) :
    ∀ k ∈ (s.after turns targets).2, k.Named := by
  refine s.ends_after (Q := fun p o => o.file = p) (fun turns p _ o h => ?_) (fun _ _ _ => rfl)
    turns
  cases h with
  | settled hplan => exact file_of_planFile hplan
  | unwritten | rewritten => rfl

theorem map_file_of_finished {workers : List Worker} {outcomes : List Outcome}
    (hnamed : ∀ k ∈ workers, k.Named)
    (hmap : workers.map (·.progress) = outcomes.map .finished) :
    outcomes.map Outcome.file = workers.map Worker.target := by
  have hfiles := forall₂_of_finished (Q := fun p o => p = o.file)
    (fun k hk o ho => (hnamed k hk o ho).symm) hmap
  rw [← List.forall₂_map_right_iff (f := Outcome.file), List.forall₂_eq_eq_eq] at hfiles
  exact hfiles.symm

theorem map_file_rewriteAtOnce (c : Catalog) (cwd : Location) (base : Path) (mode : WriteMode)
    (turns : List Turn) (targets : List Path) (t : FileTree) :
    (rewriteAtOnce c cwd base mode turns targets t).2.map Outcome.file = targets := by
  obtain ⟨turns', workers, hafter, hmap, -⟩ :=
    Start.exists_end ⟨c, cwd, base, mode, t⟩ turns targets
  have htargets := Start.targets_after ⟨c, cwd, base, mode, t⟩ turns' targets
  have hnamed := Start.named_after ⟨c, cwd, base, mode, t⟩ turns' targets
  rw [hafter] at htargets hnamed
  exact (map_file_of_finished hnamed hmap).trans htargets

theorem map_file_rewriteInTurns (s : Settings) (turns : List Turn) (c : Catalog) (cwd : Location)
    (targets : List Path) (t : FileTree) :
    (s.rewriteInTurns turns c cwd targets t).2.map Outcome.file = distinctTargets targets := by
  unfold Settings.rewriteInTurns
  dsimp only
  split
  · exact map_file_rewriteAtOnce ..
  · rw [← rewriteAtOnce_nil]
    exact map_file_rewriteAtOnce ..

end

/-- Each target has one outcome for all its spellings, under one of those that were given. -/
structure OnePerTarget (targets : List Path) (outcomes : List Outcome) : Prop where
  given : ∀ o ∈ outcomes, o.file ∈ targets
  distinct : outcomes.Pairwise fun o o' => o.file.normalize ≠ o'.file.normalize
  all : ∀ p ∈ targets, ∃ o ∈ outcomes, o.file.normalize = p.normalize

theorem onePerTarget_of_map_file {targets : List Path} {outcomes : List Outcome}
    (h : outcomes.map Outcome.file = distinctTargets targets) : OnePerTarget targets outcomes := by
  refine ⟨fun o ho => ?_, ?_, fun p hp => ?_⟩
  · exact mem_of_mem_distinctTargets (h ▸ List.mem_map_of_mem ho)
  · have hpairwise := distinctTargets_pairwise targets
    rwa [← h, List.pairwise_map] at hpairwise
  · obtain ⟨q, hq, hnormal⟩ := exists_mem_distinctTargets hp
    rw [← h] at hq
    obtain ⟨o, ho, rfl⟩ := List.mem_map.mp hq
    exact ⟨o, ho, hnormal⟩

/-! ## The run as a task -/

/-- What was asked for decides whether there is a check, as the settings do. -/
theorem Settings.runWatched_eq {s : Settings} {dryRun : Bool}
    (h : dryRun = true ↔ s.mode = .dryRun) (checker : Checker) (c : Catalog) (targets : List Path)
    (m : Machine) (turns : List Turn) :
    s.runWatched checker c targets dryRun m turns = s.run checker c targets m turns := by
  unfold runWatched run check
  cases hcommand : s.checkCommand with
  | none => simp
  | some command =>
    cases hmode : s.mode with
    | inPlace =>
      have hdry : dryRun = false := by simpa [hmode] using h
      simp [hdry]
    | dryRun =>
      have hdry : dryRun = true := h.mpr hmode
      simp [hdry]

theorem RunRequest.mode_settings (r : RunRequest) (root : Path) (config : Config) :
    (r.settings root config).mode = if r.dryRun then .dryRun else .inPlace := rfl

namespace Undertaking

variable {α β : Type} {t : FileTree}

theorem on_bind (u : Undertaking α) (f : α → Undertaking β) (t : FileTree) :
    Undertaking.on (u >>= f) t =
      match u.on t with
      | (.ok a, t) => (f a).on t
      | (.error e, t) => (.error e, t) := by
  unfold Undertaking.on
  rw [ExceptT.run_bind, StateT.run_bind]
  generalize u.run.run t = result
  obtain ⟨r, t'⟩ := result
  cases r <;> rfl

theorem on_pure (a : α) (t : FileTree) : Undertaking.on (pure a) t = (.ok a, t) := rfl

theorem on_set (t' t : FileTree) : Undertaking.on (set t') t = (.ok (), t') := rfl

theorem on_ofExcept (r : Except TaskError α) (t : FileTree) :
    Undertaking.on (ofExcept r) t = (r, t) := by
  cases r <;> rfl

theorem on_current (m : Machine) (t : FileTree) :
    m.current.on t = (.ok { m with tree := t }, t) := rfl

end Undertaking

namespace Machine

variable {m : Machine} {checker : Checker} {root : Path} {verbose : Bool} {request : RunRequest}
  {turns : List Turn} {config : Config} {catalog : Catalog} {fault : ConfigFault}

open Undertaking

theorem performRun_of_config_error (h : m.config root = .error fault) :
    (m.performRun checker root verbose request turns).on m.tree =
      (.error (.configuration fault), m.tree) := by
  simp only [performRun, on_bind, on_current, on_ofExcept, h, Except.mapError]

theorem performRun_of_catalog_error (h : m.config root = .ok config)
    (hc : m.catalog (request.settings root config).catalog = .error fault) :
    (m.performRun checker root verbose request turns).on m.tree =
      (.error (.runCatalog fault), m.tree) := by
  simp only [performRun, on_bind, on_current, on_ofExcept, h, hc, Except.mapError]

theorem performRun_of_ok (h : m.config root = .ok config)
    (hc : m.catalog (request.settings root config).catalog = .ok catalog) :
    (m.performRun checker root verbose request turns).on m.tree =
      let settings := request.settings root config
      let run := settings.run checker catalog (settings.defaultTargets catalog) m turns
      (.ok ⟨request.screen verbose run.1, if run.1.isClean then 0 else 1⟩, run.2) := by
  have hmode : request.dryRun = true ↔ (request.settings root config).mode = .dryRun := by
    rw [RunRequest.mode_settings]
    cases request.dryRun <;> simp
  simp only [performRun, on_bind, on_current, on_ofExcept, on_pure, on_set, h, hc, Except.mapError,
    Settings.runWatched_eq hmode]
  cases request.format <;> rfl

end Machine

/-- What a run with these settings reports, and the tree that it leaves: the targets are rewritten,
and a check sees the tree as they were left. -/
structure Reported (m : Machine) (checker : Checker) (settings : Settings) (catalog : Catalog)
    (turns : List Turn) (report : Report) (tree : FileTree) : Prop where
  onePerTarget : OnePerTarget (settings.defaultTargets catalog) report.outcomes
  rewritten : ∃ t, settings.rewriteInTurns turns catalog m.cwd (settings.defaultTargets catalog)
      m.tree = (t, report.outcomes) ∧
    (report.verification = none → tree = t) ∧
    ∀ v, report.verification = some v → ∃ command, settings.checkCommand = some command ∧
      checker { m with tree := t } settings.base command = (v, tree)

section
variable (m : Machine) (checker : Checker) (settings : Settings) (catalog : Catalog)
  (turns : List Turn)

theorem reported_run :
    let run := settings.run checker catalog (settings.defaultTargets catalog) m turns
    Reported m checker settings catalog turns run.1 run.2 := by
  have hfiles := map_file_rewriteInTurns settings turns catalog m.cwd
    (settings.defaultTargets catalog) m.tree
  unfold Settings.run
  generalize hrun : settings.rewriteInTurns turns catalog m.cwd (settings.defaultTargets catalog)
    m.tree = rewritten at hfiles
  obtain ⟨t, outcomes⟩ := rewritten
  have hone := onePerTarget_of_map_file hfiles
  unfold Settings.check
  cases settings.mode with
  | dryRun => exact ⟨hone, t, hrun, fun _ => rfl, nofun⟩
  | inPlace =>
    cases hcommand : settings.checkCommand with
    | none => exact ⟨hone, t, hrun, fun _ => rfl, nofun⟩
    | some command =>
      refine ⟨hone, t, hrun, nofun, fun v hv => ?_⟩
      cases hv
      exact ⟨command, hcommand, rfl⟩

end

end Amend
