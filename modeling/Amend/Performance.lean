import Amend.Console.Screen
import Amend.Invocation.Basic

/-!
# Performing a task

A task shows something, ends with an exit code and leaves a file tree behind. A fault of the
configuration stops it.
-/

set_option autoImplicit false

namespace Amend

/-- Why a task is not performed. -/
inductive TaskError
  | configuration (fault : ConfigFault)
  /-- The fault is in the catalog of a run. -/
  | runCatalog (fault : ConfigFault)
  | file (e : FileError)
  deriving DecidableEq, Repr

namespace TaskError

/-- The wording of an error. -/
def message : TaskError → String
  | configuration fault => (Failure.configuration fault).message
  | runCatalog fault =>
    "cannot build the rule catalog: " ++ (Failure.configuration fault).message
  | file e => e.message

/-- The failure that an error comes down to, below what was said about it. -/
def failure? : TaskError → Option Failure
  | configuration fault | runCatalog fault => some (.configuration fault)
  | file _ => none

/-- The exit code of an error. -/
def exitCode (e : TaskError) : Nat :=
  match e.failure? with
  | some f => f.exitCode
  | none => 1

end TaskError

/-- What is to be seen of a task, and its exit code. -/
structure Display where
  screen : Screen
  exitCode : Nat

/-- What comes of a task that is performed. -/
structure Performance extends Display where
  tree : FileTree

/-- A task on its way. What it has done to the file tree stays done if it fails. -/
abbrev Undertaking := ExceptT TaskError (StateM FileTree)

/-- What comes of a task on a file tree, and the tree that it leaves. -/
def Undertaking.on {α : Type} (u : Undertaking α) (t : FileTree) : Except TaskError α × FileTree :=
  u.run.run t

/-- How the report of a run is shown. -/
def RunRequest.screen (request : RunRequest) (verbose : Bool) (report : Report) : Screen :=
  match request.format with
  | .json => .report report
  | .text => .run request.dryRun verbose report

namespace Machine

/-- The machine as it is by now. -/
def current (m : Machine) : Undertaking Machine :=
  return { m with tree := ← get }

/-- Rewrites the targets of a project and checks the result. The exit code says whether all went
well. -/
def performRun (m : Machine) (checker : Checker) (root : Path) (verbose : Bool)
    (request : RunRequest) (turns : List Turn) : Undertaking Display := do
  let config ← ofExcept (((← m.current).config root).mapError .configuration)
  let settings := request.settings root config
  let catalog ← ofExcept (((← m.current).catalog settings.catalog).mapError .runCatalog)
  let targets := settings.defaultTargets catalog
  let now ← m.current
  let (report, tree) := match request.format with
    | .json => settings.run checker catalog targets now turns
    | .text => settings.runWatched checker catalog targets request.dryRun now turns
  set tree
  return { screen := request.screen verbose report, exitCode := if report.isClean then 0 else 1 }

/-- Lists the rules of a project, or those of another catalog that is looked for there. -/
def performRules (m : Machine) (root : Path) (other : Option Path) : Undertaking Display := do
  let config ← ofExcept (((← m.current).config root).mapError .configuration)
  let source := match other with
    | some file => .file (root ++ file)
    | none => (Settings.ofConfig root config).catalog
  let catalog ← ofExcept (((← m.current).catalog source).mapError .configuration)
  return { screen := .rules source catalog, exitCode := 0 }

/-- Diagnoses a project. -/
def performDoctor (m : Machine) (root : Path) : Undertaking Display := do
  let d := (← m.current).diagnose root
  return { screen := .diagnosis d, exitCode := d.exitCode }

/-- Writes a configuration file with the built-in targets. What stands in its place is left alone
unless `force`. -/
def performInit (m : Machine) (root : Path) (force : Bool) : Undertaking Display := do
  let file := configPath root
  if (← m.current).pathExists file && !force then
    return { screen := .configKept file, exitCode := 0 }
  let catalog ← ofExcept (Catalog.builtIn.mapError .configuration)
  set (← ofExcept (((← m.current).saveConfig root { targets := catalog.files }).mapError .file))
  return { screen := .configCreated file catalog.files.length, exitCode := 0 }

/-- Does what the program is asked to do. The workers of a parallel run take these turns. -/
def undertake (m : Machine) (checker : Checker) (i : Invocation) (turns : List Turn) :
    Undertaking Display :=
  let root := m.projectRoot i.base
  match i.task with
  | .run request => m.performRun checker root i.verbose request turns
  | .rules catalog => m.performRules root catalog
  | .doctor => m.performDoctor root
  | .init force => m.performInit root force

/-- Does what the program is asked to do, and says what comes of it if it does not fail. -/
def perform (m : Machine) (checker : Checker) (i : Invocation) : Except TaskError Performance :=
  match (m.undertake checker i []).on m.tree with
  | (.ok display, tree) => .ok { display with tree }
  | (.error e, _) => .error e

end Machine

end Amend
