import Amend.Console.Report
import Amend.Diagnosis

/-!
# Diagnoses on the terminal

Each finding has a line, and one or more below it for what was found.
-/

set_option autoImplicit false

namespace Amend.Console

/-- How good a finding is. -/
inductive Grade
  | good | doubtful | bad | skipped
  deriving DecidableEq, Repr

/-- The sign of a grade. -/
def Grade.marker (on : Bool) : Grade → String
  | good => Style.green.paint on "✅"
  | doubtful => Style.yellow.paint on "⚠️ "
  | bad => Style.red.paint on "❌"
  | skipped => Style.faint.paint on "⏭️ "

/-- A finding with its remarks. -/
def finding (on : Bool) (grade : Grade) (what : String) (remarks : List String) : List String :=
  ("   " ++ grade.marker on ++ " " ++ what) :: remarks.map (branch ++ ·)

/-- A fault as a remark. -/
def faultRemark (on : Bool) (fault : ConfigFault) : String :=
  "Error: " ++ Style.red.paint on (Failure.configuration fault).message

/-- What was found out about the configuration file. -/
def configFinding (on : Bool) : Option Path → List String
  | some file => finding on .good "Config file" [Style.cyan.paint on file.text]
  | none =>
    finding on .doubtful "Config file"
      [Style.yellow.paint on
        "Not found, using defaults. Run 'sentinel-fix init' to create one"]

/-- What was found out about the catalog. -/
def catalogFinding (on : Bool) : CatalogFinding → List String
  | .broken fault => finding on .bad "Rule catalog" [faultRemark on fault]
  | .loaded 0 _ =>
    finding on .bad "Rule catalog"
      [Style.red.paint on "No rule sets defined, nothing would be rewritten"]
  | .loaded sets rules =>
    finding on .good "Rule catalog"
      [Style.cyan.paint on (toString sets) ++ " rule set(s), " ++
        Style.cyan.paint on (toString rules) ++ " rule(s)"]

/-- What was found out about the targets. -/
def targetFinding (on : Bool) (f : TargetFinding) : List String :=
  if f.isIssue then
    finding on .bad "Target files"
      (f.missing.map fun file => "missing: " ++ Style.red.paint on file.text)
  else
    finding on .good "Target files"
      [Style.cyan.paint on (toString f.count) ++ " file(s) present"]

/-- What was found out about the check command. -/
def commandFinding (on : Bool) : CommandFinding → List String
  | .notNeeded => finding on .skipped "Check command" [Style.faint.paint on "verify = false"]
  | .found command => finding on .good "Check command" [Style.cyan.paint on command]
  | .notFound command =>
    finding on .bad "Check command"
      [Style.red.paint on "Program not found on PATH:" ++ " " ++ command]

/-- The number of issues in words. -/
def verdict (on : Bool) (issues : Nat) : String :=
  let warning (text : String) := Style.yellow.strong.paint on text
  match issues with
  | 0 => Style.green.strong.paint on "✅ All critical checks passed!"
  | 1 => warning "⚠️  1 critical issue found"
  | n => warning s!"⚠️  {n} critical issues found"

/-- The lines before the findings. -/
def diagnosisHeader (on : Bool) : List String :=
  ["", Style.cyan.strong.paint on "🏥 Sentinel Fix Doctor",
    "━━━━━━━━━━━━━━━━━━━━━━━━━━━━━━━━━━━━━━━━"]

/-- A diagnosis. -/
def diagnosis (on : Bool) (d : Diagnosis) : List String :=
  diagnosisHeader on ++
  (match d with
    | .stopped fault => finding on .bad "Config file" [faultRemark on fault]
    | .complete config catalog targets command =>
      configFinding on config ++ catalogFinding on catalog ++
        (targets.map (targetFinding on)).getD [] ++ commandFinding on command ++
        ["", verdict on d.issues]) ++
  [""]

end Amend.Console
