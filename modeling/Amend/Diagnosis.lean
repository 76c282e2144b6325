import Amend.Run.Execution
import Amend.Run.Project

/-!
# Diagnosis of a project

What stands in the way of a run: a configuration file or catalog that cannot be used, missing
targets, a check command that cannot be found. The file tree is only looked at.
-/

set_option autoImplicit false

namespace Amend

/-- What was found out about the catalog. -/
inductive CatalogFinding
  | broken (fault : ConfigFault)
  | loaded (sets rules : Nat)
  deriving DecidableEq, Repr

/-- What was found out about the targets. -/
structure TargetFinding where
  count : Nat
  missing : List Path
  deriving DecidableEq, Repr

/-- What was found out about the check command. -/
inductive CommandFinding
  /-- Runs are not checked. -/
  | notNeeded
  | found (command : String)
  | notFound (command : String)
  deriving DecidableEq, Repr

/-- What was found out about a project. -/
inductive Diagnosis
  /-- The configuration file cannot be used, and nothing else was looked at. -/
  | stopped (fault : ConfigFault)
  /-- The configuration file, if there is one, and the findings. Without a catalog it is not known
  what the targets are. -/
  | complete (config : Option Path) (catalog : CatalogFinding) (targets : Option TargetFinding)
      (command : CommandFinding)
  deriving DecidableEq, Repr

/-- A catalog without rule sets is of no use. -/
def CatalogFinding.isIssue : CatalogFinding → Bool
  | broken _ => true
  | loaded sets _ => sets == 0

def TargetFinding.isIssue (f : TargetFinding) : Bool :=
  !f.missing.isEmpty

def CommandFinding.isIssue : CommandFinding → Bool
  | notFound _ => true
  | _ => false

namespace Diagnosis

/-- How many findings stand in the way of a run. -/
def issues : Diagnosis → Nat
  | stopped _ => 1
  | complete _ catalog targets command =>
    catalog.isIssue.toNat + (targets.any TargetFinding.isIssue).toNat + command.isIssue.toNat

/-- The exit code of a diagnosis: whether there are issues. -/
def exitCode (d : Diagnosis) : Nat :=
  if d.issues = 0 then 0 else 1

end Diagnosis

namespace Machine

/-- The targets that are no files. -/
def missingTargets (m : Machine) (root : Path) (targets : List Path) : List Path :=
  targets.filter fun target => !m.isFile (root ++ target)

/-- What is to find out about the check command of a project. -/
def diagnoseCommand (m : Machine) (config : Config) : CommandFinding :=
  if !config.verify then .notNeeded
  else if m.findsProgramOf config.checkCommand then .found config.checkCommand
  else .notFound config.checkCommand

/-- What is to find out about the catalog and the targets of a project. -/
def diagnoseCatalog (m : Machine) (root : Path) (config : Config) :
    CatalogFinding × Option TargetFinding :=
  let settings := Settings.ofConfig root config
  match m.catalog settings.catalog with
  | .error fault => (.broken fault, none)
  | .ok catalog =>
    let targets := settings.defaultTargets catalog
    (.loaded catalog.sets.length (catalog.sets.foldr (·.rules.length + ·) 0),
      some ⟨targets.length, m.missingTargets root targets⟩)

/-- What is to find out about a project. -/
def diagnose (m : Machine) (root : Path) : Diagnosis :=
  match m.config? root with
  | .error fault => .stopped fault
  | .ok found =>
    let config := found.getD {}
    let (catalog, targets) := m.diagnoseCatalog root config
    .complete (found.map fun _ => configPath root) catalog targets (m.diagnoseCommand config)

end Machine

end Amend
