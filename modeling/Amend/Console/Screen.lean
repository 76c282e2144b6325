import Amend.Console.Diagnosis
import Amend.Console.Listing

/-!
# Screens

What the tasks of the program show, and the lines of it.
-/

set_option autoImplicit false

namespace Amend

/-- What a task shows. -/
inductive Screen
  /-- A run, outcome by outcome. -/
  | run (dryRun verbose : Bool) (report : Report)
  /-- The report of a run as a value. -/
  | report (report : Report)
  | rules (source : CatalogSource) (catalog : Catalog)
  | diagnosis (d : Diagnosis)
  /-- There was a configuration file, which was left alone. -/
  | configKept (file : Path)
  | configCreated (file : Path) (targets : Nat)

/-- The lines of a screen. -/
def Screen.lines (on : Bool) : Screen → List String
  | run dryRun verbose r =>
    Console.header on dryRun ++ r.outcomes.flatMap (Console.outcome on verbose) ++
      (if r.verification.isSome then [""] else []) ++
      Console.summary on r ++ Console.verification on r.verification
  | report r => [r.toJson.pretty 0]
  | rules source catalog => Console.listing on source catalog
  | diagnosis d => Console.diagnosis on d
  | configKept file =>
    [Style.yellow.paint on "⚠️" ++ s!" {file} already exists (use --force to overwrite)"]
  | configCreated file targets =>
    [Style.green.paint on "✅" ++ " Created " ++ Style.cyan.paint on file.text ++
      s!" with {targets} target(s)"]

end Amend
