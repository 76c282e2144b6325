import Amend.Run.Config

/-!
# Invocations

What the program is asked to do. What a `run` is asked for goes before what the settings of the
project say.
-/

set_option autoImplicit false

namespace Amend

/-- How the report of a run is shown. -/
inductive ReportFormat
  | text | json
  deriving DecidableEq, Repr

/-- What a run is asked for. -/
structure RunRequest where
  /-- The files to rewrite; if there are none, those of the settings. -/
  targets : List Path := []
  dryRun : Bool := false
  noVerify : Bool := false
  parallel : Bool := false
  checkCommand : Option String := none
  catalog : Option Path := none
  format : ReportFormat := .text
  deriving DecidableEq, Repr

/-- The tasks of the program. -/
inductive Task
  /-- Rewrite the targets and check the result. -/
  | run (request : RunRequest)
  /-- List the rules of the project, or of another catalog. -/
  | rules (catalog : Option Path)
  /-- Look for what stands in the way of a run. -/
  | doctor
  /-- Write a configuration file, also over an old one if `force`. -/
  | init (force : Bool)
  deriving DecidableEq, Repr

/-- What the program is asked to do. Without a task it runs as the settings say. -/
structure Invocation where
  base : Option Path := none
  verbose : Bool := false
  task : Task := .run {}
  deriving DecidableEq, Repr

/-- The settings of a run that is asked for in a project. -/
def RunRequest.settings (r : RunRequest) (root : Path) (config : Config) : Settings :=
  let s := Settings.ofConfig root config
  { s with
    targets := if r.targets.isEmpty then s.targets else r.targets
    catalog := match r.catalog with
      | some file => .file (root ++ file)
      | none => s.catalog
    checkCommand := if r.noVerify then none else r.checkCommand <|> s.checkCommand
    mode := if r.dryRun then .dryRun else s.mode
    parallel := s.parallel || r.parallel }

end Amend
