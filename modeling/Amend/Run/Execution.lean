import Amend.FileTree.Machine
import Amend.Run.Worker

/-!
# Runs

A run rewrites its targets and then checks the result with a command. Nothing that happens to a
target keeps the others from being rewritten or the result from being checked.
-/

set_option autoImplicit false

namespace Amend

/-- How a check command is run in a directory: what it says, and the tree that it leaves. -/
abbrev Checker := Machine → Path → String → Verification × FileTree

namespace Settings

/-- The targets of a run that names none itself: those of the settings, else the files of the
catalog in order. -/
def defaultTargets (s : Settings) (c : Catalog) : List Path :=
  if s.targets.isEmpty then c.files else s.targets

/-- The check after a run. A dry run is not checked: it left the tree as it was. -/
def check (s : Settings) (checker : Checker) (m : Machine) : Option Verification × FileTree :=
  match s.mode, s.checkCommand with
  | .inPlace, some command =>
    let (v, tree) := checker m s.base command
    (some v, tree)
  | _, _ => (none, m.tree)

/-- Rewrites each target once for all spellings of its path. In a parallel run of more than one
target each has a worker, and the workers take these turns. -/
def rewriteInTurns (s : Settings) (turns : List Turn) (c : Catalog) (cwd : Location)
    (targets : List Path) (t : FileTree) : FileTree × List Outcome :=
  let targets := distinctTargets targets
  if s.parallel && 1 < targets.length then rewriteAtOnce c cwd s.base s.mode turns targets t
  else rewriteEach c cwd s.base s.mode targets t

/-- Rewrites each target once. Nothing comes between the operations of a worker. -/
def rewrite (s : Settings) (c : Catalog) (cwd : Location) (targets : List Path) (t : FileTree) :
    FileTree × List Outcome :=
  s.rewriteInTurns [] c cwd targets t

/-- A parallel run does what the run in order does. -/
theorem rewrite_eq (s : Settings) (c : Catalog) (cwd : Location) (targets : List Path)
    (t : FileTree) :
    s.rewrite c cwd targets t = rewriteEach c cwd s.base s.mode (distinctTargets targets) t := by
  simp only [rewrite, rewriteInTurns, rewriteAtOnce_nil, ite_self]

/-- Rewrites the targets and checks the result. Workers keep step if nothing else is said. -/
def run (s : Settings) (checker : Checker) (c : Catalog) (targets : List Path) (m : Machine)
    (turns : List Turn := Turn.inStep targets.length) : Report × FileTree :=
  let (tree, outcomes) := s.rewriteInTurns turns c m.cwd targets m.tree
  let (verification, tree) := s.check checker { m with tree }
  (⟨outcomes, verification⟩, tree)

/-- Rewrites the targets and checks the result while someone looks on. The check is announced
before it starts, so whether there is one is decided by what was asked for. -/
def runWatched (s : Settings) (checker : Checker) (c : Catalog) (targets : List Path)
    (dryRun : Bool) (m : Machine) (turns : List Turn := Turn.inStep targets.length) :
    Report × FileTree :=
  let (tree, outcomes) := s.rewriteInTurns turns c m.cwd targets m.tree
  let (verification, tree) :=
    if s.checkCommand.isSome && !dryRun then s.check checker { m with tree } else (none, tree)
  (⟨outcomes, verification⟩, tree)

end Settings

end Amend
