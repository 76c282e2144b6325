import Amend.Proofs.Run.Interleaving

/-!
# What comes of a target

A worker reads its target once and applies the set for it once. So the outcome of a target is what
comes of this one set, applied to the file as it was at one point of the run, unless the worker dies
(`Settings.accomplishes_rewriteInTurns`). This is so whatever turns the workers take, and also where
two targets lead to one file.
-/

set_option autoImplicit false

namespace Amend

/-- What can come of a target that a set is applied to, where one of these trees is found. -/
inductive Treated (trees : FileTree → Prop) (cwd : Location) (base : Path) (mode : WriteMode)
    (set : RuleSet) (p : Path) : Outcome → Prop
  | settled {t : FileTree} {o : Outcome} : trees t →
    planFile noFaults t cwd base mode p set = .settled o → Treated trees cwd base mode set p o
  | rewritten {t : FileTree} {result : Rewrite} : trees t →
    planFile noFaults t cwd base mode p set = .write result →
    Treated trees cwd base mode set p (.succeeded p .rewritten result)
  | unwritten {t : FileTree} {result : Rewrite} (e : FileError) : trees t →
    planFile noFaults t cwd base mode p set = .write result →
    Treated trees cwd base mode set p (.unwritten p (.writeFailure (base ++ p) e) result)
  | aborted (reason : String) : Treated trees cwd base mode set p (.aborted p reason)

/-- How far a worker can have come that applies a set, where it finds one of these trees. -/
def Progress.Treats (trees : FileTree → Prop) (cwd : Location) (base : Path) (mode : WriteMode)
    (set : RuleSet) (p : Path) : Progress → Prop
  | .waiting => True
  | .computed result | .created _ result | .filled _ result | .readied _ result =>
    ∃ t, trees t ∧ planFile noFaults t cwd base mode p set = .write result
  | .finished o => Treated trees cwd base mode set p o

section
variable {trees trees' : FileTree → Prop} {c : Catalog} {cwd : Location} {base : Path}
  {mode : WriteMode} {set : RuleSet} {p : Path} {pr : Progress} {o : Outcome} {t : FileTree}

theorem Treated.mono (h : Treated trees cwd base mode set p o) (hsub : ∀ t, trees t → trees' t) :
    Treated trees' cwd base mode set p o := by
  cases h with
  | settled ht hplan => exact .settled (hsub _ ht) hplan
  | rewritten ht hplan => exact .rewritten (hsub _ ht) hplan
  | unwritten e ht hplan => exact .unwritten e (hsub _ ht) hplan
  | aborted reason => exact .aborted reason

theorem Progress.Treats.mono (h : pr.Treats trees cwd base mode set p)
    (hsub : ∀ t, trees t → trees' t) : pr.Treats trees' cwd base mode set p := by
  cases pr with
  | waiting => trivial
  | computed | created | filled | readied =>
    obtain ⟨t, ht, hplan⟩ := h
    exact ⟨t, hsub t ht, hplan⟩
  | finished o => exact Treated.mono h hsub

/-- A worker goes on with what it made of its target when it read it. -/
theorem Progress.Treats.step (h : pr.Treats trees cwd base mode (c.setFor p) p) (ht : trees t) :
    (pr.step c cwd base mode p t).2.Treats trees cwd base mode (c.setFor p) p := by
  cases pr with
  | waiting =>
    simp only [Progress.step]
    cases hplan : planFile noFaults t cwd base mode p (c.setFor p) with
    | settled o => exact Treated.settled ht hplan
    | write result => exact ⟨t, ht, hplan⟩
  | computed result =>
    obtain ⟨t', ht', hplan⟩ := h
    simp only [Progress.step]
    split
    · exact ⟨t', ht', hplan⟩
    · exact Treated.unwritten _ ht' hplan
  | created | filled => exact h
  | readied staged result =>
    obtain ⟨t', ht', hplan⟩ := h
    simp only [Progress.step]
    split
    · exact Treated.rewritten ht' hplan
    · exact Treated.unwritten _ ht' hplan
  | finished o => exact h

theorem Progress.Treats.die (h : pr.Treats trees cwd base mode set p) (reason : String)
    (t : FileTree) : (pr.die p reason t).2.Treats trees cwd base mode set p := by
  cases pr with
  | waiting | computed | created | filled | readied => exact Treated.aborted reason
  | finished o => exact h

end

/-! ## All workers -/

section
variable {s : Start} {targets : List Path}

/-- The trees that the workers find in their turns. -/
def Start.Meets (s : Start) (turns : List Turn) (targets : List Path) (t : FileTree) : Prop :=
  ∃ before, before <+: turns ∧ t = (s.after before targets).1

/-- A worker that applies the set for its target. -/
def Start.Treats (s : Start) (trees : FileTree → Prop) (k : Worker) : Prop :=
  k.progress.Treats trees s.cwd s.base s.mode (s.catalog.setFor k.target) k.target

theorem Start.Treats.take {trees : FileTree → Prop} {k : Worker} {t : FileTree}
    (h : s.Treats trees k) (ht : trees t) (turn : Turn) :
    s.Treats trees (k.take s.catalog s.cwd s.base s.mode t turn).2 := by
  cases turn with
  | step i => exact Progress.Treats.step h ht
  | death i reason => exact Progress.Treats.die h reason t

theorem Start.treats_after (s : Start) (turns : List Turn) (targets : List Path) :
    ∀ k ∈ (s.after turns targets).2, s.Treats (s.Meets turns targets) k := by
  induction turns using List.reverseRecOn with
  | nil =>
    intro k hk
    obtain ⟨target, -, rfl⟩ := List.mem_map.mp hk
    trivial
  | append_singleton turns turn ih =>
    have hsub : ∀ t, s.Meets turns targets t → s.Meets (turns ++ [turn]) targets t := by
      rintro t ⟨before, hprefix, rfl⟩
      exact ⟨before, hprefix.trans (List.prefix_append ..), rfl⟩
    have hmet : s.Meets (turns ++ [turn]) targets (s.after turns targets).1 :=
      ⟨turns, List.prefix_append .., rfl⟩
    rw [after_concat]
    cases hk : (s.after turns targets).2[turn.worker]? with
    | none =>
      rw [takeTurn_eq_self _ _ _ _ _ _ hk]
      exact fun k hk => Progress.Treats.mono (ih k hk) hsub
    | some k =>
      obtain ⟨pre, post, hworkers, hpre⟩ := exists_split hk
      rw [hworkers] at ih ⊢
      rw [takeTurn_eq _ _ _ _ _ _ hpre]
      simp only [List.mem_append, List.mem_cons] at ih ⊢
      rintro k' (hk' | rfl | hk')
      · exact Progress.Treats.mono (ih k' (.inl hk')) hsub
      · exact Start.Treats.take (Progress.Treats.mono (ih k (.inr (.inl rfl))) hsub) hmet turn
      · exact Progress.Treats.mono (ih k' (.inr (.inr hk'))) hsub

/-- How the outcomes of a run come about: there are turns after which the tree is the one that the
run leaves, and each target is treated by the set for it in the course of them. -/
def Start.Accomplishes (s : Start) (targets : List Path)
    (result : FileTree × List Outcome) : Prop :=
  ∃ turns, result.1 = (s.after turns targets).1 ∧
    List.Forall₂ (fun p o => Treated (s.Meets turns targets) s.cwd s.base s.mode
      (s.catalog.setFor p) p o) targets result.2

theorem Start.accomplishes_rewriteAtOnce (s : Start) (turns : List Turn) (targets : List Path) :
    s.Accomplishes targets
      (rewriteAtOnce s.catalog s.cwd s.base s.mode turns targets s.tree) := by
  obtain ⟨turns', workers, hafter, hmap, -⟩ := s.exists_end turns targets
  have htargets := s.targets_after turns' targets
  have htreats := s.treats_after turns' targets
  rw [hafter] at htargets htreats
  refine ⟨turns', by rw [hafter], ?_⟩
  have houtcomes := forall₂_of_finished (Q := fun p o => Treated (s.Meets turns' targets) s.cwd
    s.base s.mode (s.catalog.setFor p) p o) (fun k hk o ho => ?_) hmap
  · rwa [htargets] at houtcomes
  · have hk := htreats k hk
    rw [Start.Treats, ho] at hk
    exact hk

end

/-- Whatever turns the workers take, the outcome of each target is what comes of the set for it. -/
theorem Settings.accomplishes_rewriteInTurns (s : Settings) (turns : List Turn) (c : Catalog)
    (cwd : Location) (targets : List Path) (t : FileTree) :
    (⟨c, cwd, s.base, s.mode, t⟩ : Start).Accomplishes (distinctTargets targets)
      (s.rewriteInTurns turns c cwd targets t) := by
  unfold Settings.rewriteInTurns
  dsimp only
  split
  · exact Start.accomplishes_rewriteAtOnce ⟨c, cwd, s.base, s.mode, t⟩ turns _
  · rw [← rewriteAtOnce_nil]
    exact Start.accomplishes_rewriteAtOnce ⟨c, cwd, s.base, s.mode, t⟩ [] _

end Amend
