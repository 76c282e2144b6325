import Amend.Proofs.Run.Schedule
import Amend.Run.Execution
import Mathlib.Data.List.Forall2
import Mathlib.Data.List.Induction

/-!
# Parallel runs

However the workers of a run take turns, the run ends as the run in order does, up to the targets
whose workers died (`rewriteAtOnce_eq_inOrder`).
-/

set_option autoImplicit false

namespace Amend

open FileTree StagedWrite

/-- Targets that do not get in each other's way: no two of them lead to the same file, and none of
them asks for a temporary file. -/
structure Independent (t : FileTree) (cwd : Location) (base : Path) (targets : List Path) :
    Prop where
  wellFormed : t.WellFormed
  avoids : ∀ p ∈ targets, t.AvoidsTemps ((base ++ p).stage linkLimit cwd)
  apart : targets.Pairwise fun p q =>
    ∀ F, Resolves t cwd (base ++ p) F → ¬ Resolves t cwd (base ++ q) F

section
variable {s : Start} {t : FileTree} {k : Worker} {pre post workers : List Worker} {p : Path}
  {pr : Progress} {turns : List Turn} {targets : List Path} {i n : Nat} {reason : String}

/-! ## Single turns -/

theorem exists_split {α : Type} {xs : List α} {x : α} (h : xs[i]? = some x) :
    ∃ pre post, xs = pre ++ x :: post ∧ pre.length = i := by
  obtain ⟨hi, rfl⟩ := List.getElem?_eq_some_iff.mp h
  refine ⟨xs.take i, xs.drop (i + 1), ?_, by simp [Nat.le_of_lt hi]⟩
  rw [List.getElem_cons_drop, List.take_append_drop]

theorem takeTurn_eq (c : Catalog) (cwd : Location) (base : Path) (mode : WriteMode)
    (t : FileTree) (turn : Turn) (h : pre.length = turn.worker) :
    takeTurn c cwd base mode t (pre ++ k :: post) turn =
      ((k.take c cwd base mode t turn).1, pre ++ (k.take c cwd base mode t turn).2 :: post) := by
  unfold takeTurn
  rw [← h, List.getElem?_append_right (Nat.le_refl _)]
  simp

theorem takeTurn_eq_self (c : Catalog) (cwd : Location) (base : Path) (mode : WriteMode)
    (t : FileTree) (turn : Turn) (h : workers[turn.worker]? = none) :
    takeTurn c cwd base mode t workers turn = (t, workers) := by
  unfold takeTurn
  rw [h]

theorem Start.Inv.take (h : s.Inv t (k :: post)) (turn : Turn) :
    s.Inv (k.take s.catalog s.cwd s.base s.mode t turn).1
      ((k.take s.catalog s.cwd s.base s.mode t turn).2 :: post) := by
  cases turn with
  | step => exact h.step
  | death _ reason => exact h.die reason

theorem Start.Inv.takeTurn (h : s.Inv t workers) (turn : Turn) :
    s.Inv (takeTurn s.catalog s.cwd s.base s.mode t workers turn).1
      (takeTurn s.catalog s.cwd s.base s.mode t workers turn).2 := by
  cases hk : workers[turn.worker]? with
  | none =>
    rw [takeTurn_eq_self _ _ _ _ _ _ hk]
    exact h
  | some k =>
    obtain ⟨pre, post, rfl, hpre⟩ := exists_split hk
    rw [takeTurn_eq _ _ _ _ _ _ hpre]
    exact ((h.perm List.perm_middle).take turn).perm List.perm_middle.symm

theorem takeTurns_append (c : Catalog) (cwd : Location) (base : Path) (mode : WriteMode)
    (turns turns' : List Turn) (t : FileTree) (workers : List Worker) :
    takeTurns c cwd base mode (turns ++ turns') t workers =
      takeTurns c cwd base mode turns' (takeTurns c cwd base mode turns t workers).1
        (takeTurns c cwd base mode turns t workers).2 := by
  induction turns generalizing t workers with
  | nil => rfl
  | cons turn turns ih => exact ih ..

/-! ## Whole schedules -/

/-- The tree and the workers after some turns. -/
def Start.after (s : Start) (turns : List Turn) (targets : List Path) :
    FileTree × List Worker :=
  takeTurns s.catalog s.cwd s.base s.mode turns s.tree
    (targets.map fun target => ⟨target, .waiting⟩)

theorem Start.after_concat (s : Start) (turns : List Turn) (turn : Turn) (targets : List Path) :
    s.after (turns ++ [turn]) targets =
      Amend.takeTurn s.catalog s.cwd s.base s.mode (s.after turns targets).1
        (s.after turns targets).2 turn :=
  takeTurns_append ..

theorem Start.inv_init (h : Independent s.tree s.cwd s.base targets) :
    s.Inv s.tree (targets.map fun target => ⟨target, .waiting⟩) := by
  have htemps : temps (targets.map fun target => ⟨target, .waiting⟩) = [] := by
    simp [temps, Progress.temp?]
  refine ⟨h.wellFormed, ?_, ?_, ?_, ?_, fun _ => none, ?_, ?_⟩
  · simpa using h.avoids
  · exact List.pairwise_map.mpr h.apart
  · simp [Start.Fits]
  · refine List.pairwise_map.mpr (List.pairwise_of_forall fun p q l hl => ?_)
    cases hl
  · rw [htemps, without_nil, overwrite_none]
  · simp [Start.Written]

/-- Every schedule keeps the workers out of each other's way. -/
theorem Start.inv_after (h : Independent s.tree s.cwd s.base targets) (turns : List Turn) :
    s.Inv (s.after turns targets).1 (s.after turns targets).2 := by
  induction turns using List.reverseRecOn with
  | nil => exact s.inv_init h
  | append_singleton turns turn ih =>
    rw [after_concat]
    exact ih.takeTurn turn

/-! ## Deaths -/

/-- The worker at position `i` dies in one of the turns, before it is finished. -/
def Start.DiesIn (s : Start) (turns : List Turn) (targets : List Path) (i : Nat)
    (reason : String) : Prop :=
  ∃ before after k, turns = before ++ .death i reason :: after ∧
    (s.after before targets).2[i]? = some k ∧ k.progress.outcome? = none

theorem Start.diesIn_concat {turn : Turn} : s.DiesIn (turns ++ [turn]) targets i reason ↔
    s.DiesIn turns targets i reason ∨ turn = .death i reason ∧
      ∃ k, (s.after turns targets).2[i]? = some k ∧ k.progress.outcome? = none := by
  constructor
  · rintro ⟨before, after, k, heq, hk, hunfinished⟩
    cases after using List.reverseRecOn with
    | nil =>
      obtain ⟨rfl, hturn⟩ := List.append_inj' heq rfl
      exact .inr ⟨(List.cons.inj hturn).1, k, hk, hunfinished⟩
    | append_singleton after last =>
      rw [← List.cons_append, ← List.append_assoc] at heq
      obtain ⟨rfl, -⟩ := List.append_inj' heq rfl
      exact .inl ⟨before, after, k, rfl, hk, hunfinished⟩
  · rintro (⟨before, after, k, rfl, hk, hunfinished⟩ | ⟨rfl, k, hk, hunfinished⟩)
    · exact ⟨before, after ++ [turn], k, by simp, hk, hunfinished⟩
    · exact ⟨turns, [], k, rfl, hk, hunfinished⟩

theorem take_finished {o : Outcome} (turn : Turn) (h : k.progress = .finished o) :
    k.take s.catalog s.cwd s.base s.mode t turn = (t, k) := by
  obtain ⟨target, progress⟩ := k
  subst h
  cases turn <;> rfl

theorem take_death (h : k.progress.outcome? = none) :
    (k.take s.catalog s.cwd s.base s.mode t (.death i reason)).2 =
      ⟨k.target, .finished (.aborted k.target reason)⟩ := by
  obtain ⟨target, progress⟩ := k
  cases progress with
  | finished o => cases h
  | waiting | computed | created | filled | readied => rfl

/-- The outcomes that a worker's own operation can finish it with. -/
inductive EndsWith (c : Catalog) (cwd : Location) (base : Path) (mode : WriteMode) (t : FileTree)
    (p : Path) : Outcome → Prop
  | settled {o : Outcome} : planFile noFaults t cwd base mode p (c.setFor p) = .settled o →
      EndsWith c cwd base mode t p o
  | unwritten (e : FileError) (result : Rewrite) :
      EndsWith c cwd base mode t p (.unwritten p (.writeFailure (base ++ p) e) result)
  | rewritten (result : Rewrite) : EndsWith c cwd base mode t p (.succeeded p .rewritten result)

section
variable {c : Catalog} {cwd : Location} {base : Path} {mode : WriteMode} {o : Outcome}

theorem step_eq_finished (h : pr.outcome? = none)
    (hstep : (pr.step c cwd base mode p t).2 = .finished o) : EndsWith c cwd base mode t p o := by
  cases pr with
  | waiting =>
    simp only [Progress.step] at hstep
    cases hplan : planFile noFaults t cwd base mode p (c.setFor p) with
    | settled o' =>
      rw [hplan] at hstep
      cases hstep
      exact .settled hplan
    | write result =>
      rw [hplan] at hstep
      cases hstep
  | computed result =>
    simp only [Progress.step] at hstep
    split at hstep <;> cases hstep
    exact .unwritten ..
  | created | filled => cases hstep
  | readied w result =>
    simp only [Progress.step] at hstep
    split at hstep <;> cases hstep
    · exact .rewritten result
    · exact .unwritten ..
  | finished o => cases h

/-- A worker is finished by its own operation or by its death, unless it was before. -/
theorem take_eq_finished {turn : Turn}
    (h : (k.take c cwd base mode t turn).2.progress = .finished o) : k.progress = .finished o ∨
      EndsWith c cwd base mode t k.target o ∨ ∃ reason, o = .aborted k.target reason := by
  obtain ⟨target, progress⟩ := k
  cases hprogress : progress.outcome? with
  | some o' =>
    cases progress <;> cases hprogress
    cases turn <;> exact .inl h
  | none =>
    cases turn with
    | step => exact .inr (.inl (step_eq_finished hprogress h))
    | death i reason =>
      cases progress <;> cases hprogress <;> cases h <;> exact .inr (.inr ⟨reason, rfl⟩)

end

theorem step_ne_aborted (h : pr.outcome? = none) :
    (pr.step s.catalog s.cwd s.base s.mode p t).2 ≠ .finished (.aborted p reason) := by
  intro hstep
  have hends := step_eq_finished h hstep
  generalize ho : Outcome.aborted p reason = o at hends
  have hstatus : o.status = .aborted := ho ▸ rfl
  cases hends with
  | settled hplan =>
    have := planFile_settled hplan
    rw [hstatus] at this
    simp at this
  | unwritten | rewritten => cases hstatus

/-- What is known of the worker at position `i` after some turns: it has the target of this
position, its death is on record, and otherwise it ends as foreseen. -/
structure Start.Accounts (s : Start) (turns : List Turn) (targets : List Path) (i : Nat)
    (k : Worker) : Prop where
  target : targets[i]? = some k.target
  dead : ∀ reason, s.DiesIn turns targets i reason →
    k.progress = .finished (.aborted k.target reason)
  alive : (∀ reason, ¬ s.DiesIn turns targets i reason) →
    ∀ o, k.progress = .finished o → o = s.foreseen k.target

theorem Start.Accounts.unfinished (h : s.Accounts turns targets i k)
    (hk : k.progress.outcome? = none) (reason : String) : ¬ s.DiesIn turns targets i reason := by
  intro hdies
  rw [h.dead reason hdies] at hk
  cases hk

theorem Start.diesIn_concat_of_ne {turn : Turn} (h : turn.worker ≠ i) :
    s.DiesIn (turns ++ [turn]) targets i reason ↔ s.DiesIn turns targets i reason := by
  rw [Start.diesIn_concat]
  refine ⟨fun hdies => hdies.resolve_right ?_, .inl⟩
  rintro ⟨rfl, -⟩
  exact h rfl

theorem Start.Accounts.concat_of_ne {turn : Turn} (h : s.Accounts turns targets i k)
    (hi : turn.worker ≠ i) : s.Accounts (turns ++ [turn]) targets i k := by
  refine ⟨h.target, fun reason hdies => ?_, fun halive => h.alive fun reason hdies => ?_⟩
  · exact h.dead reason ((diesIn_concat_of_ne hi).mp hdies)
  · exact halive reason ((diesIn_concat_of_ne hi).mpr hdies)

/-- A worker that was finished before stays as it is. -/
theorem Start.Accounts.concat_of_finished {turn : Turn} {o : Outcome}
    (h : s.Accounts turns targets i k) (hk : (s.after turns targets).2[i]? = some k)
    (ho : k.progress = .finished o) : s.Accounts (turns ++ [turn]) targets i k := by
  have hsame : ∀ reason, s.DiesIn (turns ++ [turn]) targets i reason ↔
      s.DiesIn turns targets i reason := fun reason => by
    rw [Start.diesIn_concat]
    refine ⟨fun hdies => hdies.resolve_right ?_, .inl⟩
    rintro ⟨-, k', hk', hunfinished⟩
    cases hk.symm.trans hk'
    rw [ho] at hunfinished
    cases hunfinished
  refine ⟨h.target, fun reason hdies => ?_, fun halive => h.alive fun reason hdies => ?_⟩
  · exact h.dead reason ((hsame reason).mp hdies)
  · exact halive reason ((hsame reason).mpr hdies)

/-- A worker that takes its turn is on record as dead if it has just died, and else does what is
foreseen. -/
theorem Start.Accounts.concat_take {turn : Turn} (h : s.Accounts turns targets i k)
    (hi : turn.worker = i) (hk : (s.after turns targets).2[i]? = some k)
    (hunfinished : k.progress.outcome? = none)
    (hfits : s.Fits t (k.take s.catalog s.cwd s.base s.mode (s.after turns targets).1 turn).2.target
      (k.take s.catalog s.cwd s.base s.mode (s.after turns targets).1 turn).2.progress) :
    s.Accounts (turns ++ [turn]) targets i
      (k.take s.catalog s.cwd s.base s.mode (s.after turns targets).1 turn).2 := by
  have hnone := h.unfinished hunfinished
  cases turn with
  | step j =>
    refine ⟨h.target, fun reason hdies => ?_, fun _ o ho => ?_⟩
    · rcases diesIn_concat.mp hdies with hdies | ⟨hturn, -⟩
      · exact absurd hdies (hnone reason)
      · cases hturn
    · rw [ho] at hfits
      rcases hfits with ho' | ⟨reason, rfl⟩
      · exact ho'
      · exact absurd ho (step_ne_aborted hunfinished)
  | death j reason =>
    obtain rfl : j = i := hi
    rw [take_death hunfinished]
    refine ⟨h.target, fun reason' hdies => ?_, fun halive => ?_⟩
    · rcases diesIn_concat.mp hdies with hdies | ⟨hturn, -⟩
      · exact absurd hdies (hnone reason')
      · cases hturn
        rfl
    · exact absurd (diesIn_concat.mpr (.inr ⟨rfl, k, hk, hunfinished⟩)) (halive reason)

theorem Start.accounts_init (hk : (s.after [] targets).2[i]? = some k) :
    s.Accounts [] targets i k := by
  simp only [Start.after, takeTurns, List.getElem?_map, Option.map_eq_some_iff] at hk
  obtain ⟨p, hp, rfl⟩ := hk
  refine ⟨hp, ?_, fun _ o ho => ?_⟩
  · rintro reason ⟨before, after, -, heq, -⟩
    simp at heq
  · cases ho

/-- All workers are accounted for after any turns. -/
theorem Start.accounts (h : Independent s.tree s.cwd s.base targets) (turns : List Turn) :
    ∀ i k, (s.after turns targets).2[i]? = some k → s.Accounts turns targets i k := by
  induction turns using List.reverseRecOn with
  | nil => exact fun i k => accounts_init
  | append_singleton turns turn ih =>
    intro i k hk
    have hinv := s.inv_after h (turns ++ [turn])
    have hafter := s.after_concat turns turn targets
    cases hold : (s.after turns targets).2[turn.worker]? with
    | none =>
      rw [hafter, takeTurn_eq_self _ _ _ _ _ _ hold] at hk
      refine (ih i k hk).concat_of_ne ?_
      rintro rfl
      rw [hold] at hk
      cases hk
    | some k₀ =>
      obtain ⟨pre, post, hworkers, hpre⟩ := exists_split hold
      rw [hworkers, takeTurn_eq _ _ _ _ _ _ hpre] at hafter
      by_cases hi : turn.worker = i
      · have hk₀ : (s.after turns targets).2[i]? = some k₀ := hi ▸ hold
        rw [hafter, ← hi, ← hpre] at hk
        obtain rfl : _ = k := by simpa using hk
        cases hunfinished : k₀.progress.outcome? with
        | none =>
          refine (ih i k₀ hk₀).concat_take hi hk₀ hunfinished (hinv.fits _ ?_)
          rw [hafter]
          simp
        | some o =>
          have ho : k₀.progress = .finished o := by
            cases hp : k₀.progress <;> simp_all [Progress.outcome?]
          rw [take_finished turn ho]
          exact (ih i k₀ hk₀).concat_of_finished hk₀ ho
      · refine (ih i k ?_).concat_of_ne hi
        rw [hafter] at hk
        have hset : pre ++ (k₀.take s.catalog s.cwd s.base s.mode (s.after turns targets).1 turn).2
            :: post = (pre ++ k₀ :: post).set pre.length
              (k₀.take s.catalog s.cwd s.base s.mode (s.after turns targets).1 turn).2 := by
          simp
        rw [hset, List.getElem?_set_ne (hpre ▸ hi)] at hk
        rw [hworkers, hk]

/-! ## The end of a run -/

/-- A worker takes up to `n` steps. -/
def Progress.steps (c : Catalog) (cwd : Location) (base : Path) (mode : WriteMode)
    (target : Path) : Nat → FileTree → Progress → FileTree × Progress
  | 0, t, p => (t, p)
  | n + 1, t, p =>
    let (t, p) := p.step c cwd base mode target t
    steps c cwd base mode target n t p

theorem steps_finished (c : Catalog) (cwd : Location) (base : Path) (mode : WriteMode)
    (target : Path) (n : Nat) (t : FileTree) (o : Outcome) :
    Progress.steps c cwd base mode target n t (.finished o) = (t, .finished o) := by
  induction n with
  | zero => rfl
  | succ n ih => exact ih

theorem steps_eq_finish (c : Catalog) (cwd : Location) (base : Path) (mode : WriteMode)
    (target : Path) (t : FileTree) (pr : Progress) (h : pr.stepsLeft ≤ n) :
    Progress.steps c cwd base mode target n t pr =
      ((pr.finish c cwd base mode target t).1,
        .finished (pr.finish c cwd base mode target t).2) := by
  induction n generalizing t pr with
  | zero =>
    cases pr <;> simp [Progress.stepsLeft] at h
    rw [Progress.finish_finished]
    rfl
  | succ n ih =>
    cases ho : pr.outcome? with
    | some o =>
      have hpr : pr = .finished o := by cases pr <;> simp_all [Progress.outcome?]
      subst hpr
      rw [Progress.finish_finished, steps_finished]
    | none =>
      have hlt := Progress.stepsLeft_step c cwd base mode target t ho
      rw [Progress.finish_eq_step _ _ _ _ _ _ ho]
      exact ih _ _ (Nat.le_of_lt_succ (Nat.lt_of_lt_of_le hlt h))

theorem takeTurns_replicate (c : Catalog) (cwd : Location) (base : Path) (mode : WriteMode)
    (n : Nat) (t : FileTree) :
    takeTurns c cwd base mode (List.replicate n (.step pre.length)) t (pre ++ ⟨p, pr⟩ :: post) =
      ((Progress.steps c cwd base mode p n t pr).1,
        pre ++ ⟨p, (Progress.steps c cwd base mode p n t pr).2⟩ :: post) := by
  induction n generalizing t pr with
  | zero => rfl
  | succ n ih =>
    rw [List.replicate_succ, takeTurns, takeTurn_eq _ _ _ _ _ _ rfl]
    exact ih _

/-- The turns in which the workers from position `i` on finish one after the other. -/
def finishing (i : Nat) : Nat → List Turn
  | 0 => []
  | n + 1 => List.replicate 5 (.step i) ++ finishing (i + 1) n

theorem stepsLeft_le (pr : Progress) : pr.stepsLeft ≤ 5 := by
  cases pr <;> simp [Progress.stepsLeft]

/-- To finish one after the other is to take turns. -/
theorem takeTurns_finishing (c : Catalog) (cwd : Location) (base : Path) (mode : WriteMode)
    (pre rest : List Worker) (t : FileTree) :
    ∃ rest', takeTurns c cwd base mode (finishing pre.length rest.length) t (pre ++ rest) =
        ((finishEach c cwd base mode rest t).1, pre ++ rest') ∧
      rest'.map (·.progress) = (finishEach c cwd base mode rest t).2.map .finished := by
  induction rest generalizing pre t with
  | nil => exact ⟨[], rfl, rfl⟩
  | cons k rest ih =>
    obtain ⟨p, pr⟩ := k
    rw [List.length_cons, finishing, takeTurns_append, takeTurns_replicate,
      steps_eq_finish _ _ _ _ _ _ _ (stepsLeft_le pr)]
    generalize hf : pr.finish c cwd base mode p t = f
    obtain ⟨t', o⟩ := f
    obtain ⟨rest', htake, hmap⟩ := ih (pre ++ [⟨p, .finished o⟩]) t'
    refine ⟨⟨p, .finished o⟩ :: rest', ?_, ?_⟩
    · simpa [finishEach, hf] using htake
    · simpa [finishEach, hf] using hmap

theorem step_of_mem_finishing {turn : Turn} (h : turn ∈ finishing i n) : ∃ j, turn = .step j := by
  induction n generalizing i with
  | zero => cases h
  | succ n ih =>
    rcases List.mem_append.mp h with h | h
    · exact ⟨i, List.eq_of_mem_replicate h⟩
    · exact ih h

theorem diesIn_append_steps {steps : List Turn} (h : ∀ turn ∈ steps, ∃ j, turn = .step j) :
    s.DiesIn (turns ++ steps) targets i reason ↔ s.DiesIn turns targets i reason := by
  induction steps using List.reverseRecOn with
  | nil => rw [List.append_nil]
  | append_singleton steps turn ih =>
    obtain ⟨j, rfl⟩ := h turn (by simp)
    rw [← List.append_assoc, Start.diesIn_concat,
      ih fun turn hturn => h turn (List.mem_append_left _ hturn)]
    simp

/-- A run is a schedule in which all workers finish. -/
theorem Start.exists_end (s : Start) (turns : List Turn) (targets : List Path) :
    ∃ turns' workers,
      s.after turns' targets =
        ((rewriteAtOnce s.catalog s.cwd s.base s.mode turns targets s.tree).1, workers) ∧
      workers.map (·.progress) =
        (rewriteAtOnce s.catalog s.cwd s.base s.mode turns targets s.tree).2.map .finished ∧
      ∀ i reason, s.DiesIn turns' targets i reason ↔ s.DiesIn turns targets i reason := by
  obtain ⟨workers, htake, hmap⟩ := takeTurns_finishing s.catalog s.cwd s.base s.mode []
    (s.after turns targets).2 (s.after turns targets).1
  refine ⟨turns ++ finishing 0 (s.after turns targets).2.length, workers, ?_, hmap, fun i reason =>
    diesIn_append_steps fun turn => step_of_mem_finishing⟩
  rw [Start.after, takeTurns_append]
  exact htake

theorem target_take (k : Worker) (c : Catalog) (cwd : Location) (base : Path) (mode : WriteMode)
    (t : FileTree) (turn : Turn) : (k.take c cwd base mode t turn).2.target = k.target := by
  cases turn <;> rfl

theorem Start.targets_after (s : Start) (turns : List Turn) (targets : List Path) :
    (s.after turns targets).2.map Worker.target = targets := by
  induction turns using List.reverseRecOn with
  | nil => simp [Start.after, takeTurns, Function.comp_def]
  | append_singleton turns turn ih =>
    rw [after_concat]
    cases hk : (s.after turns targets).2[turn.worker]? with
    | none => rw [takeTurn_eq_self _ _ _ _ _ _ hk, ih]
    | some k =>
      obtain ⟨pre, post, hworkers, hpre⟩ := exists_split hk
      rw [hworkers, takeTurn_eq _ _ _ _ _ _ hpre, ← ih, hworkers]
      simp [target_take]

/-- What holds of all the outcomes that workers can be finished with holds of the outcomes of
finished workers. -/
theorem Start.ends_after {Q : Path → Outcome → Prop}
    (h : ∀ turns, ∀ p ∈ targets, ∀ o,
      EndsWith s.catalog s.cwd s.base s.mode (s.after turns targets).1 p o → Q p o)
    (haborted : ∀ p ∈ targets, ∀ reason, Q p (.aborted p reason)) (turns : List Turn) :
    ∀ k ∈ (s.after turns targets).2, ∀ o, k.progress = .finished o → Q k.target o := by
  induction turns using List.reverseRecOn with
  | nil =>
    rintro k hk o ho
    obtain ⟨target, -, rfl⟩ := List.mem_map.mp hk
    cases ho
  | append_singleton turns turn ih =>
    rw [after_concat]
    cases hk : (s.after turns targets).2[turn.worker]? with
    | none => rwa [takeTurn_eq_self _ _ _ _ _ _ hk]
    | some k =>
      have hmem := List.mem_of_getElem? hk
      have htarget : k.target ∈ targets := by
        rw [← s.targets_after turns targets]
        exact List.mem_map_of_mem hmem
      obtain ⟨pre, post, hworkers, hpre⟩ := exists_split hk
      rw [hworkers] at ih ⊢
      rw [takeTurn_eq _ _ _ _ _ _ hpre]
      simp only [List.mem_append, List.mem_cons] at ih ⊢
      rintro k' (hk' | rfl | hk') o ho
      · exact ih k' (.inl hk') o ho
      · rw [target_take]
        rcases take_eq_finished ho with ho | hends | ⟨reason, rfl⟩
        · exact ih k (.inr (.inl rfl)) o ho
        · exact h turns k.target htarget o hends
        · exact haborted k.target htarget reason
      · exact ih k' (.inr (.inr hk')) o ho

theorem forall₂_of_finished {Q : Path → Outcome → Prop} {workers : List Worker}
    {outcomes : List Outcome} (h : ∀ k ∈ workers, ∀ o, k.progress = .finished o → Q k.target o)
    (hmap : workers.map (·.progress) = outcomes.map .finished) :
    List.Forall₂ Q (workers.map Worker.target) outcomes := by
  induction workers generalizing outcomes with
  | nil =>
    rw [List.map_eq_nil_iff.mp hmap.symm]
    exact .nil
  | cons k rest ih =>
    cases outcomes with
    | nil => cases hmap
    | cons o outcomes =>
      obtain ⟨hk, hrest⟩ := List.cons.inj hmap
      have htail := ih (fun k hk => h k (List.mem_cons_of_mem _ hk)) hrest
      exact .cons (h k List.mem_cons_self o hk) htail

theorem getElem?_of_finished {workers : List Worker} {outcomes : List Outcome} {o : Outcome}
    (htargets : workers.map Worker.target = targets)
    (hmap : workers.map (·.progress) = outcomes.map .finished) :
    workers[i]? = some ⟨p, .finished o⟩ ↔ targets[i]? = some p ∧ outcomes[i]? = some o := by
  have hprogress := congrArg (·[i]?) hmap
  simp only [List.getElem?_map] at hprogress
  rw [← htargets, List.getElem?_map]
  cases hk : workers[i]? with
  | none => simp
  | some k =>
    obtain ⟨p', pr⟩ := k
    rw [hk, Option.map_some] at hprogress
    obtain ⟨o', ho', rfl⟩ := Option.map_eq_some_iff.mp hprogress.symm
    simp [ho']

theorem exists_outcome {workers : List Worker} {outcomes : List Outcome}
    (htargets : workers.map Worker.target = targets)
    (hmap : workers.map (·.progress) = outcomes.map .finished) (hp : targets[i]? = some p) :
    ∃ o, workers[i]? = some ⟨p, .finished o⟩ := by
  have hlength : workers.length = outcomes.length := by simpa using congrArg List.length hmap
  obtain ⟨hi, -⟩ := List.getElem?_eq_some_iff.mp hp
  have hi' : i < outcomes.length := by rwa [← hlength, ← List.length_map Worker.target, htargets]
  exact ⟨_, (getElem?_of_finished htargets hmap).mpr ⟨hp, List.getElem?_eq_getElem hi'⟩⟩

/-- What a run comes to: every worker that died is aborted and has left its file alone, and every
other target is as foreseen. -/
structure Start.Ended (s : Start) (turns : List Turn) (targets : List Path)
    (run : FileTree × List Outcome) : Prop where
  length : run.2.length = targets.length
  dead : ∀ i p reason, targets[i]? = some p → s.DiesIn turns targets i reason →
    run.2[i]? = some (.aborted p reason) ∧
      run.1.entryAt s.cwd (s.base ++ p) = s.tree.entryAt s.cwd (s.base ++ p)
  alive : ∀ i p, targets[i]? = some p → (∀ reason, ¬ s.DiesIn turns targets i reason) →
    run.2[i]? = some (s.foreseen p)
  tree : ∃ w, run.1 = s.tree.overwrite w ∧ ∀ l d, w l = some d ↔
    ∃ (i : Nat) (p : Path), targets[i]? = some p ∧ run.2[i]? = some (s.foreseen p) ∧
      s.Writes p l d

theorem Start.ended (h : Independent s.tree s.cwd s.base targets) (turns : List Turn) :
    s.Ended turns targets (rewriteAtOnce s.catalog s.cwd s.base s.mode turns targets s.tree) := by
  obtain ⟨turns', workers, hafter, hmap, hdies⟩ := s.exists_end turns targets
  have hinv := s.inv_after h turns'
  have haccounts := s.accounts h turns'
  have htargets := s.targets_after turns' targets
  generalize rewriteAtOnce s.catalog s.cwd s.base s.mode turns targets s.tree = run at hafter hmap
  rw [hafter] at hinv haccounts htargets
  have hworker : ∀ (i : Nat) p o, workers[i]? = some ⟨p, .finished o⟩ ↔
      targets[i]? = some p ∧ run.2[i]? = some o := fun _ _ _ => getElem?_of_finished htargets hmap
  refine ⟨?_, ?_, ?_, ?_⟩
  · have hlength := congrArg List.length hmap
    rw [List.length_map, List.length_map] at hlength
    rw [← hlength, ← htargets, List.length_map]
  · intro i p reason hp hdead
    obtain ⟨o, hk⟩ := exists_outcome htargets hmap hp
    have haborted := (haccounts i _ hk).dead reason ((hdies i reason).mpr hdead)
    obtain rfl : o = .aborted p reason := Progress.finished.inj haborted
    refine ⟨((hworker i p _).mp hk).2, ?_⟩
    obtain ⟨pre, post, rfl, -⟩ := exists_split hk
    refine (hinv.perm List.perm_middle).entryAt_eq fun heq => ?_
    exact s.foreseen_ne_aborted _ _ (Progress.finished.inj heq).symm
  · intro i p hp halive
    obtain ⟨o, hk⟩ := exists_outcome htargets hmap hp
    rw [((hworker i p o).mp hk).2, (haccounts i _ hk).alive
      (fun reason hdead => halive reason ((hdies i reason).mp hdead)) o rfl]
  · obtain ⟨w, htree, hw⟩ := hinv.tree
    have htemps : temps workers = [] := by
      refine List.filterMap_eq_nil_iff.mpr fun k hk => ?_
      obtain ⟨i, hk⟩ := List.mem_iff_getElem?.mp hk
      obtain ⟨o, hk'⟩ := exists_outcome htargets hmap (haccounts i k hk).target
      rw [Option.some.inj (hk.symm.trans hk')]
      rfl
    refine ⟨w, ?_, fun l d => ?_⟩
    · rwa [htemps, without_nil] at htree
    rw [hw]
    constructor
    · rintro ⟨⟨p, pr⟩, hk, hfin, hwrites⟩
      obtain rfl : pr = .finished (s.foreseen p) := hfin
      obtain ⟨i, hk⟩ := List.mem_iff_getElem?.mp hk
      obtain ⟨hp, ho⟩ := (hworker i p _).mp hk
      exact ⟨i, p, hp, ho, hwrites⟩
    · rintro ⟨i, p, hp, ho, hwrites⟩
      exact ⟨_, List.mem_of_getElem? ((hworker i p _).mpr ⟨hp, ho⟩), rfl, hwrites⟩

/-! ## Agreement with the run in order -/

theorem Start.not_diesIn_nil (s : Start) (targets : List Path) (i : Nat) (reason : String) :
    ¬ s.DiesIn [] targets i reason := by
  rintro ⟨before, after, -, heq, -⟩
  simp at heq

/-- What is written where determines the tree at the end. -/
theorem Start.Ended.tree_eq {turns' : List Turn} {targets' : List Path}
    {run run' : FileTree × List Outcome} (h : s.Ended turns targets run)
    (h' : s.Ended turns' targets' run')
    (hsame : ∀ p, (∃ i : Nat, targets[i]? = some p ∧ run.2[i]? = some (s.foreseen p)) ↔
      ∃ i : Nat, targets'[i]? = some p ∧ run'.2[i]? = some (s.foreseen p)) : run.1 = run'.1 := by
  obtain ⟨w, htree, hw⟩ := h.tree
  obtain ⟨w', htree', hw'⟩ := h'.tree
  have heq : w = w' := by
    funext l
    refine Option.ext fun d => ?_
    rw [hw, hw']
    constructor
    · rintro ⟨i, p, hp, ho, hwrites⟩
      obtain ⟨i', hp', ho'⟩ := (hsame p).mp ⟨i, hp, ho⟩
      exact ⟨i', p, hp', ho', hwrites⟩
    · rintro ⟨i, p, hp, ho, hwrites⟩
      obtain ⟨i', hp', ho'⟩ := (hsame p).mpr ⟨i, hp, ho⟩
      exact ⟨i', p, hp', ho', hwrites⟩
  rw [htree, htree', heq]

/-- The targets whose workers did not die. -/
def survivors (targets : List Path) (outcomes : List Outcome) : List Path :=
  ((targets.zip outcomes).filter fun q => q.2.status ≠ .aborted).map Prod.fst

theorem survivors_sublist (targets : List Path) (outcomes : List Outcome) :
    (survivors targets outcomes).Sublist targets := by
  induction targets generalizing outcomes with
  | nil => exact List.Sublist.refl _
  | cons p targets ih =>
    cases outcomes with
    | nil => exact List.nil_sublist _
    | cons o outcomes =>
      have hrest := ih outcomes
      unfold survivors at hrest ⊢
      rw [List.zip_cons_cons, List.filter_cons]
      split
      · exact hrest.cons_cons p
      · exact hrest.cons p

theorem mem_survivors {outcomes : List Outcome} : p ∈ survivors targets outcomes ↔
    ∃ (i : Nat) (o : Outcome), targets[i]? = some p ∧ outcomes[i]? = some o ∧
      o.status ≠ .aborted := by
  unfold survivors
  simp only [List.mem_map, List.mem_filter, decide_eq_true_eq]
  constructor
  · rintro ⟨⟨p, o⟩, ⟨hmem, hstatus⟩, rfl⟩
    obtain ⟨i, hi⟩ := List.mem_iff_getElem?.mp hmem
    obtain ⟨hp, ho⟩ := List.getElem?_zip_eq_some.mp hi
    exact ⟨i, o, hp, ho, hstatus⟩
  · rintro ⟨i, o, hp, ho, hstatus⟩
    refine ⟨(p, o), ⟨List.mem_iff_getElem?.mpr ⟨i, ?_⟩, hstatus⟩, rfl⟩
    exact List.getElem?_zip_eq_some.mpr ⟨hp, ho⟩

theorem Independent.sublist {cwd : Location} {base : Path} {targets' : List Path}
    (h : Independent t cwd base targets) (hs : targets'.Sublist targets) :
    Independent t cwd base targets' :=
  ⟨h.wellFormed, fun p hp => h.avoids p (hs.subset hp), h.apart.sublist hs⟩

theorem Start.Ended.outcome {run : FileTree × List Outcome} {o : Outcome}
    (h : s.Ended turns targets run) (hp : targets[i]? = some p) (ho : run.2[i]? = some o) :
    (o = s.foreseen p ∧ ∀ reason, ¬ s.DiesIn turns targets i reason) ∨
      ∃ reason, o = .aborted p reason ∧ s.DiesIn turns targets i reason := by
  by_cases hdead : ∃ reason, s.DiesIn turns targets i reason
  · obtain ⟨reason, hdead⟩ := hdead
    have := (h.dead i p reason hp hdead).1
    exact .inr ⟨reason, Option.some.inj (ho.symm.trans this), hdead⟩
  · have halive : ∀ reason, ¬ s.DiesIn turns targets i reason := fun reason hd =>
      hdead ⟨reason, hd⟩
    exact .inl ⟨Option.some.inj (ho.symm.trans (h.alive i p hp halive)), halive⟩

end

/-- A run of workers that take turns ends as the run in order, except that the workers that die
are aborted, leave their files alone and are as good as never started. -/
theorem rewriteAtOnce_eq_inOrder (set : Settings) (c : Catalog) (cwd : Location)
    (turns : List Turn) (targets : List Path) (t : FileTree)
    (h : Independent t cwd set.base (distinctTargets targets)) :
    let inOrder := { set with parallel := false }.rewrite c cwd targets t
    let run := rewriteAtOnce c cwd set.base set.mode turns (distinctTargets targets) t
    let dies := (Start.mk c cwd set.base set.mode t).DiesIn turns (distinctTargets targets)
    ((∀ i reason, ¬ dies i reason) → run = inOrder) ∧
    run.2.length = (distinctTargets targets).length ∧
    (∀ i p, (distinctTargets targets)[i]? = some p →
      (∀ reason, dies i reason → run.2[i]? = some (.aborted p reason) ∧
        run.1.entryAt cwd (set.base ++ p) = t.entryAt cwd (set.base ++ p)) ∧
      ((∀ reason, ¬ dies i reason) → run.2[i]? = inOrder.2[i]?)) ∧
    (∀ (i : Nat) o, run.2[i]? = some o → (o.status = .aborted ↔ ∃ reason, dies i reason)) ∧
    run.1 = (rewriteEach c cwd set.base set.mode
      (survivors (distinctTargets targets) run.2) t).1 := by
  let s : Start := ⟨c, cwd, set.base, set.mode, t⟩
  intro inOrder run dies
  have hinOrder : inOrder =
      rewriteAtOnce c cwd set.base set.mode [] (distinctTargets targets) t := by
    rw [rewriteAtOnce_nil]
    exact Settings.rewrite_eq ..
  have hrun : s.Ended turns (distinctTargets targets) run := s.ended h turns
  have horder : s.Ended [] (distinctTargets targets) inOrder := hinOrder ▸ s.ended h []
  have hforeseen : ∀ (i : Nat) p, (distinctTargets targets)[i]? = some p →
      inOrder.2[i]? = some (s.foreseen p) :=
    fun i p hp => horder.alive i p hp (s.not_diesIn_nil _ i)
  have halive : ∀ i p, (distinctTargets targets)[i]? = some p → (∀ reason, ¬ dies i reason) →
      run.2[i]? = inOrder.2[i]? := fun i p hp hnone =>
    (hrun.alive i p hp hnone).trans (hforeseen i p hp).symm
  refine ⟨fun hnone => ?_, hrun.length, fun i p hp =>
    ⟨fun reason => hrun.dead i p reason hp, halive i p hp⟩,
    fun i o ho => ?_, ?_⟩
  · refine Prod.ext (hrun.tree_eq horder fun p => ?_) (List.ext_getElem? fun i => ?_)
    · refine exists_congr fun i => and_congr_right fun hp => ?_
      rw [halive i p hp (hnone i)]
    · cases hp : (distinctTargets targets)[i]? with
      | some p => exact halive i p hp (hnone i)
      | none =>
        rw [List.getElem?_eq_none_iff] at hp
        rw [List.getElem?_eq_none (hrun.length ▸ hp), List.getElem?_eq_none (horder.length ▸ hp)]
  · obtain ⟨hi, -⟩ := List.getElem?_eq_some_iff.mp ho
    have hp := List.getElem?_eq_getElem (l := distinctTargets targets) (i := i) (hrun.length ▸ hi)
    rcases hrun.outcome hp ho with ⟨rfl, hnone⟩ | ⟨reason, rfl, hdead⟩
    · exact ⟨fun hstatus => absurd hstatus (s.status_foreseen _),
        fun ⟨reason, hdead⟩ => absurd hdead (hnone reason)⟩
    · exact ⟨fun _ => ⟨reason, hdead⟩, fun _ => rfl⟩
  · have hsub := survivors_sublist (distinctTargets targets) run.2
    have hsurvivors : s.Ended [] (survivors (distinctTargets targets) run.2)
        (rewriteEach c cwd set.base set.mode (survivors (distinctTargets targets) run.2) t) := by
      rw [← rewriteAtOnce_nil]
      exact s.ended (h.sublist hsub) []
    refine hrun.tree_eq hsurvivors fun p => ⟨?_, ?_⟩
    · rintro ⟨i, hp, ho⟩
      have hmem : p ∈ survivors (distinctTargets targets) run.2 :=
        mem_survivors.mpr ⟨i, _, hp, ho, s.status_foreseen p⟩
      obtain ⟨j, hj⟩ := List.mem_iff_getElem?.mp hmem
      exact ⟨j, hj, hsurvivors.alive j p hj (s.not_diesIn_nil _ j)⟩
    · rintro ⟨j, hj, -⟩
      obtain ⟨i, o, hp, ho, hstatus⟩ := mem_survivors.mp (List.mem_of_getElem? hj)
      refine ⟨i, hp, ?_⟩
      rcases hrun.outcome hp ho with ⟨rfl, -⟩ | ⟨reason, rfl, -⟩
      · exact ho
      · exact absurd rfl hstatus

/-! ## An instance -/

/-- A file and a link to another one, side by side. -/
def sideBySide : FileTree :=
  ⟨[(["p"], .dir false), (["p", "a.rs"], .file ⟨"x".toUTF8, 0o644, none⟩),
    (["p", "b.rs"], .link ⟨"c.rs"⟩), (["p", "c.rs"], .file ⟨"x".toUTF8, 0o600, none⟩)]⟩

/-- Rules for both: `x` becomes `y`. -/
def sideBySideRules : Catalog :=
  let rule : Rule :=
    ⟨"r", none, { source := "x", regex := .set (· == 'x'), names := [] }, .substitution "y" none⟩
  ⟨[⟨"s", ⟨"a.rs"⟩, [rule]⟩, ⟨"s", ⟨"b.rs"⟩, [rule]⟩], []⟩

theorem sideBySide_independent :
    Independent sideBySide ["p"] ⟨"."⟩ (distinctTargets [⟨"a.rs"⟩, ⟨"b.rs"⟩]) := by
  have htargets : distinctTargets [⟨"a.rs"⟩, ⟨"b.rs"⟩] = [⟨"a.rs"⟩, ⟨"b.rs"⟩] := by decide
  rw [htargets]
  refine ⟨wellFormed_of_entries (by decide), ?_, ?_⟩
  · intro p hp
    refine avoidsTemps_of_entries ?_ (by decide)
    rcases (by simpa using hp : p = ⟨"a.rs"⟩ ∨ p = ⟨"b.rs"⟩) with rfl | rfl
    · decide
    · decide
  · refine List.pairwise_pair.mpr fun F hF hF' => ?_
    have hled : sideBySide.entryAt ["p"] ((⟨"."⟩ : Path) ++ (⟨"a.rs"⟩ : Path)) =
        .ok (["p", "a.rs"], .file ⟨"x".toUTF8, 0o644, none⟩) :=
      entryAt_eq_ok.mpr ⟨Path.fault?_eq_none.mpr (by decide), rfl, 40,
        .step (.stay rfl) (.single (.into rfl (by decide) rfl nofun))⟩
    have hled' : sideBySide.entryAt ["p"] ((⟨"."⟩ : Path) ++ (⟨"b.rs"⟩ : Path)) =
        .ok (["p", "c.rs"], .file ⟨"x".toUTF8, 0o600, none⟩) :=
      entryAt_eq_ok.mpr ⟨Path.fault?_eq_none.mpr (by decide), rfl, 39, .step (.stay rfl)
        (.step (.link rfl (by decide) rfl) (.single (.into rfl (by decide) rfl nofun)))⟩
    exact absurd ((hF.eq_of_entryAt hled).symm.trans (hF'.eq_of_entryAt hled')) (by decide)

/-- The workers of both targets may take turns. -/
theorem sideBySide_eq_inOrder :
    rewriteAtOnce sideBySideRules ["p"] ⟨"."⟩ .inPlace
        [.step 1, .step 0, .step 0, .step 1, .step 1, .step 0]
        (distinctTargets [⟨"a.rs"⟩, ⟨"b.rs"⟩]) sideBySide =
      Settings.rewrite ⟨⟨"."⟩, [], .builtIn, none, .inPlace, false⟩ sideBySideRules ["p"]
        [⟨"a.rs"⟩, ⟨"b.rs"⟩] sideBySide := by
  refine (rewriteAtOnce_eq_inOrder ⟨⟨"."⟩, [], .builtIn, none, .inPlace, true⟩ sideBySideRules
    ["p"] _ [⟨"a.rs"⟩, ⟨"b.rs"⟩] sideBySide sideBySide_independent).1 fun i reason hdies => ?_
  refine Start.not_diesIn_nil _ _ i reason ((diesIn_append_steps ?_).mp hdies)
  simp

end Amend
