import Amend.Catalog.Basic
import Amend.FileTree.StagedWrite
import Amend.Run.Config
import Amend.Run.Report

/-!
# Rewriting files

A target is read, its rules are applied to the text, and a text that changed is written back. What
goes wrong with one target does not stop the others.
-/

set_option autoImplicit false

namespace Amend

/-- The text of the file at a path. -/
def readSource (faults : Faults) (t : FileTree) (cwd : Location) (path : Path) :
    Except Failure String :=
  let result : Except FileError String := match faults .read with
    | some e => .error e
    | none => t.readText cwd path
  match result with
  | .ok text => .ok text
  | .error .notFound => .error (.fileNotFound path)
  | .error e => .error (.readFailure path e)

/-- Writes a text to a path, all of it or nothing. -/
def writeSource (faults : Faults) (t : FileTree) (cwd : Location) (path : Path) (text : String) :
    FileTree × Except Failure Unit :=
  match StagedWrite.writeAtomic faults t cwd path text with
  | (t, .ok ()) => (t, .ok ())
  | (t, .error e) => (t, .error (.writeFailure path e))

/-- What is to be done about a target. -/
inductive Plan
  /-- Nothing more; this is what happened to it. -/
  | settled (outcome : Outcome)
  /-- The new text is to be written. -/
  | write (result : Rewrite)
  deriving DecidableEq, Repr

/-- Reads a target in `base` and applies a rule set to it. A text that did not change is never
written, and in a dry run none is. -/
def planFile (faults : Faults) (t : FileTree) (cwd : Location) (base : Path) (mode : WriteMode)
    (target : Path) (set : RuleSet) : Plan :=
  match readSource faults t cwd (base ++ target) with
  | .error f => .settled (.failed target f)
  | .ok old =>
    let result := Rule.applyAll set.rules old.toList
    if result.text = old.toList then .settled (.succeeded target .unchanged result)
    else
      match mode with
      | .dryRun => .settled (.succeeded target .planned result)
      | .inPlace => .write result

/-- Applies a rule set to a target in `base` and writes what it makes of it. -/
def rewriteFile (faults : Faults) (t : FileTree) (cwd : Location) (base : Path) (mode : WriteMode)
    (target : Path) (set : RuleSet) : FileTree × Outcome :=
  match planFile faults t cwd base mode target set with
  | .settled outcome => (t, outcome)
  | .write result =>
    match writeSource faults t cwd (base ++ target) (.ofList result.text) with
    | (t, .ok ()) => (t, .succeeded target .rewritten result)
    | (t, .error f) => (t, .unwritten target f result)

/-- The targets without those that are spelled otherwise before. -/
def distinctTargets (targets : List Path) : List Path :=
  go [] targets
where
  /-- Those whose normal forms were not seen. -/
  go (seen : List Path) : List Path → List Path
    | [] => []
    | target :: rest =>
      if seen.contains target.normalize then go seen rest
      else target :: go (target.normalize :: seen) rest

/-- The set for a target; a target that no set is for has no rules. -/
def Catalog.setFor (c : Catalog) (target : Path) : RuleSet :=
  (c.get? target).getD (.empty target)

/-- Rewrites targets in their order. In a run no operation fails by itself: what fails does so for
what stands in the tree, where directories that take no new file are sealed. Permission bits are
carried along and keep nobody from reading or writing. -/
def rewriteEach (c : Catalog) (cwd : Location) (base : Path) (mode : WriteMode) :
    List Path → FileTree → FileTree × List Outcome
  | [], t => (t, [])
  | target :: rest, t =>
    let (t, outcome) := rewriteFile noFaults t cwd base mode target (c.setFor target)
    let (t, outcomes) := rewriteEach c cwd base mode rest t
    (t, outcome :: outcomes)

end Amend
