import Amend.Run.Rewriting

/-!
# Workers

In a parallel run each target has a worker of its own. The workers share the file tree and take
their operations on it one at a time, in whatever order their turns come. The outcomes stand in the
order of the targets, whichever worker ends first.

Main statement: a worker that nothing comes between does what `rewriteFile` does
(`Progress.finish_waiting`), so workers that run one after the other do what `rewriteEach` does
(`rewriteAtOnce_nil`).
-/

set_option autoImplicit false

namespace Amend

/-- How far a worker has come with its target. -/
inductive Progress
  /-- The target is not read yet. -/
  | waiting
  /-- There is a new text. -/
  | computed (result : Rewrite)
  /-- There is an empty temporary file. -/
  | created (staged : StagedWrite) (result : Rewrite)
  /-- The temporary file holds the new text. -/
  | filled (staged : StagedWrite) (result : Rewrite)
  /-- The temporary file has the permission bits of the target, too. -/
  | readied (staged : StagedWrite) (result : Rewrite)
  | finished (outcome : Outcome)
  deriving DecidableEq, Repr

namespace Progress

/-- What happened to the target, once the worker is finished. -/
def outcome? : Progress → Option Outcome
  | finished outcome => some outcome
  | _ => none

/-- How many operations a worker takes at most until it is finished. -/
def stepsLeft : Progress → Nat
  | waiting => 5
  | computed _ => 4
  | created _ _ => 3
  | filled _ _ => 2
  | readied _ _ => 1
  | finished _ => 0

/-- The state of a worker that is to carry out a plan. -/
def ofPlan : Plan → Progress
  | .settled outcome => finished outcome
  | .write result => computed result

theorem stepsLeft_ofPlan (plan : Plan) : (ofPlan plan).stepsLeft < 5 := by
  cases plan <;> simp [ofPlan, stepsLeft]

/-- The end of a worker that dies. Its temporary file is removed. -/
def die (target : Path) (reason : String) (t : FileTree) : Progress → FileTree × Progress
  | waiting | computed _ => (t, finished (.aborted target reason))
  | created staged _ | filled staged _ | readied staged _ =>
    (staged.discard t, finished (.aborted target reason))
  | finished outcome => (t, finished outcome)

section
variable (c : Catalog) (cwd : Location) (base : Path) (mode : WriteMode) (target : Path)

/-- The next operation of a worker. As in `rewriteEach`, none fails by itself, and permission bits
keep it from nothing. -/
def step (t : FileTree) : Progress → FileTree × Progress
  | waiting => (t, ofPlan (planFile noFaults t cwd base mode target (c.setFor target)))
  | computed result =>
    match StagedWrite.create t cwd (base ++ target) with
    | .ok (staged, t) => (t, created staged result)
    | .error e => (t, finished (.unwritten target (.writeFailure (base ++ target) e) result))
  | created staged result => (staged.append t (.ofList result.text), filled staged result)
  | filled staged result => (staged.copyMode t cwd, readied staged result)
  | readied staged result =>
    match staged.replace t cwd with
    | .ok t => (t, finished (.succeeded target .rewritten result))
    | .error e =>
      (staged.discard t,
        finished (.unwritten target (.writeFailure (base ++ target) e) result))
  | finished outcome => (t, finished outcome)

theorem stepsLeft_step (t : FileTree) {p : Progress} (h : p.outcome? = none) :
    (step c cwd base mode target t p).2.stepsLeft < p.stepsLeft := by
  cases p with
  | finished o => simp [outcome?] at h
  | waiting => exact stepsLeft_ofPlan _
  | computed r => simp only [step]; split <;> simp [stepsLeft]
  | created w r => simp [step, stepsLeft]
  | filled w r => simp [step, stepsLeft]
  | readied w r => simp only [step]; split <;> simp [stepsLeft]

/-- The remaining operations of a worker. -/
def finish (t : FileTree) (p : Progress) : FileTree × Outcome :=
  match h : p.outcome? with
  | some outcome => (t, outcome)
  | none =>
    have := stepsLeft_step c cwd base mode target t h
    finish (step c cwd base mode target t p).1 (step c cwd base mode target t p).2
termination_by p.stepsLeft

theorem finish_finished (t : FileTree) (o : Outcome) :
    finish c cwd base mode target t (.finished o) = (t, o) := by
  rw [finish]
  split
  · simp_all [outcome?]
  · next h => simp [outcome?] at h

theorem finish_eq_step (t : FileTree) {p : Progress} (h : p.outcome? = none) :
    finish c cwd base mode target t p =
      finish c cwd base mode target (step c cwd base mode target t p).1
        (step c cwd base mode target t p).2 := by
  rw [finish]; split <;> simp_all

/-- A worker that is never interrupted does what `rewriteFile` does. -/
theorem finish_waiting (t : FileTree) :
    finish c cwd base mode target t .waiting =
      rewriteFile noFaults t cwd base mode target (c.setFor target) := by
  rw [finish_eq_step _ _ _ _ _ _ rfl, rewriteFile]
  simp only [step]
  cases planFile noFaults t cwd base mode target (c.setFor target) with
  | settled o => exact finish_finished ..
  | write r =>
    simp only [ofPlan]
    rw [finish_eq_step _ _ _ _ _ _ rfl]
    simp only [step, writeSource, StagedWrite.writeAtomic, noFaults]
    cases StagedWrite.create t cwd (base ++ target) with
    | error e => exact finish_finished ..
    | ok created =>
      obtain ⟨staged, t⟩ := created
      simp only
      rw [finish_eq_step _ _ _ _ _ _ rfl]
      simp only [step]
      rw [finish_eq_step _ _ _ _ _ _ rfl]
      simp only [step]
      rw [finish_eq_step _ _ _ _ _ _ rfl]
      simp only [step, StagedWrite.commit, StagedWrite.publish_noFaults]
      cases staged.replace (staged.copyMode (staged.append t (.ofList r.text)) cwd) cwd with
      | ok t => exact finish_finished ..
      | error e => simp [finish_finished, StagedWrite.discard_copyMode]

end

end Progress

/-- A worker: its target, and how far it has come. -/
structure Worker where
  target : Path
  progress : Progress
  deriving DecidableEq, Repr

/-- Who does something next. -/
inductive Turn
  /-- The worker at a position takes its next operation. -/
  | step (worker : Nat)
  /-- The worker at a position dies. -/
  | death (worker : Nat) (reason : String)
  deriving DecidableEq, Repr

/-- The position of the worker whose turn it is. -/
def Turn.worker : Turn → Nat
  | step worker | death worker _ => worker

/-- The turns of workers that keep step: none takes its next operation before all have taken theirs.
After these turns all are finished. -/
def Turn.inStep (workers : Nat) : List Turn :=
  (List.replicate Progress.waiting.stepsLeft (List.range workers)).flatten.map step

section
variable (c : Catalog) (cwd : Location) (base : Path) (mode : WriteMode)

/-- What a worker does in its turn. -/
def Worker.take (t : FileTree) (k : Worker) : Turn → FileTree × Worker
  | .step _ =>
    let (t, progress) := k.progress.step c cwd base mode k.target t
    (t, { k with progress })
  | .death _ reason =>
    let (t, progress) := k.progress.die k.target reason t
    (t, { k with progress })

/-- A turn. Where there is no worker, nothing happens. -/
def takeTurn (t : FileTree) (workers : List Worker) (turn : Turn) : FileTree × List Worker :=
  match workers[turn.worker]? with
  | some k =>
    let (t, k) := k.take c cwd base mode t turn
    (t, workers.set turn.worker k)
  | none => (t, workers)

/-- Turns, one after the other. -/
def takeTurns : List Turn → FileTree → List Worker → FileTree × List Worker
  | [], t, workers => (t, workers)
  | turn :: turns, t, workers =>
    let (t, workers) := takeTurn c cwd base mode t workers turn
    takeTurns turns t workers

/-- Lets the workers finish one after the other. -/
def finishEach : List Worker → FileTree → FileTree × List Outcome
  | [], t => (t, [])
  | k :: rest, t =>
    let (t, outcome) := k.progress.finish c cwd base mode k.target t
    let (t, outcomes) := finishEach rest t
    (t, outcome :: outcomes)

/-- Rewrites targets with a worker for each. The workers that are not finished after the turns
finish one after the other. -/
def rewriteAtOnce (turns : List Turn) (targets : List Path) (t : FileTree) :
    FileTree × List Outcome :=
  let workers := targets.map fun target => ⟨target, .waiting⟩
  let (t, workers) := takeTurns c cwd base mode turns t workers
  finishEach c cwd base mode workers t

/-- Workers that run one after the other do what the run in order does. -/
theorem rewriteAtOnce_nil (targets : List Path) (t : FileTree) :
    rewriteAtOnce c cwd base mode [] targets t = rewriteEach c cwd base mode targets t := by
  simp only [rewriteAtOnce, takeTurns]
  induction targets generalizing t with
  | nil => rfl
  | cons target rest ih =>
    simp only [List.map_cons, finishEach, rewriteEach, Progress.finish_waiting, ih]

end

end Amend
