import Amend.Json
import Amend.Rule.Basic

/-!
# Reports

What happened to each target of a run, and what the check after it said.
-/

set_option autoImplicit false

namespace Amend

/-- What happened to a target. -/
inductive OutcomeStatus
  | rewritten
  | unchanged
  /-- The run writes nothing: the changes were computed and the file left alone. -/
  | planned
  | notFound
  | readFailed
  | writeFailed
  /-- The worker for the file died. -/
  | aborted
  deriving DecidableEq, Repr

namespace OutcomeStatus

/-- The status in words. -/
def label : OutcomeStatus → String
  | rewritten => "rewritten"
  | unchanged => "unchanged"
  | planned => "planned"
  | notFound => "not found"
  | readFailed => "read failed"
  | writeFailed => "write failed"
  | aborted => "aborted"

/-- The status as a word of a report. -/
def key : OutcomeStatus → String
  | notFound => "not_found"
  | readFailed => "read_failed"
  | writeFailed => "write_failed"
  | s => s.label

/-- The status of a target that `f` kept from being rewritten. -/
def ofFailure : Failure → OutcomeStatus
  | .fileNotFound _ => notFound
  | .writeFailure _ _ => writeFailed
  | _ => readFailed

end OutcomeStatus

/-- What happened to a target, and how much. -/
structure Outcome where
  /-- The target as it was given. -/
  file : Path
  applied : List String
  replacements : Nat
  success : Bool
  status : OutcomeStatus
  error : Option String
  deriving DecidableEq, Repr

namespace Outcome

/-- The outcome of a target that was handled, and what the rules made of it. -/
def succeeded (file : Path) (status : OutcomeStatus) (result : Rewrite) : Outcome where
  file
  applied := result.applied
  replacements := result.replacements
  success := true
  status
  error := none

/-- The outcome of a target that failed before any rule was applied. -/
def failed (file : Path) (f : Failure) : Outcome where
  file
  applied := []
  replacements := 0
  success := false
  status := .ofFailure f
  error := some f.message

/-- The outcome of a target whose rules were applied but whose new text was not written. -/
def unwritten (file : Path) (f : Failure) (result : Rewrite) : Outcome :=
  { failed file f with applied := result.applied, replacements := result.replacements }

/-- The outcome of a target whose worker died. -/
def aborted (file : Path) (reason : String) : Outcome where
  file
  applied := []
  replacements := 0
  success := false
  status := .aborted
  error := some reason

/-- Whether the text of the target changed, or would change. -/
def changed (o : Outcome) : Bool :=
  o.status == .rewritten || o.status == .planned

/-- The outcome as a member of a report. -/
def toJson (o : Outcome) : Json :=
  .object <|
    [("file_path", .string o.file.text),
      ("rules_applied", .array (o.applied.map .string)),
      ("replacements_made", .int o.replacements),
      ("success", .bool o.success),
      ("status", .string o.status.key)] ++
    (o.error.map fun e => ("error", Json.string e)).toList

end Outcome

/-- What the check command said. -/
structure Verification where
  command : String
  passed : Bool
  exitCode : Option Int
  output : String
  deriving DecidableEq, Repr

namespace Verification

/-- The failure of a check that did not pass. -/
def failure? (v : Verification) : Option Failure :=
  if v.passed then none
  else
    let reason := match v.exitCode with
      | some code => s!"exited with status {code}"
      | none => "did not run to completion"
    some (.verificationFailure v.command reason)

/-- The verification as a member of a report. -/
def toJson (v : Verification) : Json :=
  .object
    [("command", .string v.command),
      ("passed", .bool v.passed),
      ("exit_code", (v.exitCode.map Json.int).getD .null),
      ("raw_output", .string v.output)]

end Verification

/-- The outcomes of a run in the order of its targets, and the verification unless there was
none. -/
structure Report where
  outcomes : List Outcome
  verification : Option Verification
  deriving DecidableEq, Repr

namespace Report

def allFilesSucceeded (r : Report) : Bool :=
  r.outcomes.all Outcome.success

/-- Without a verification there is nothing that did not pass. -/
def verificationPassed (r : Report) : Bool :=
  r.verification.all Verification.passed

def isClean (r : Report) : Bool :=
  r.allFilesSucceeded && r.verificationPassed

def filesChanged (r : Report) : Nat :=
  r.outcomes.countP Outcome.changed

def filesFailed (r : Report) : Nat :=
  r.outcomes.countP fun o => !o.success

def totalReplacements (r : Report) : Nat :=
  r.outcomes.foldr (·.replacements + ·) 0

def toJson (r : Report) : Json :=
  .object <|
    [("outcomes", .array (r.outcomes.map Outcome.toJson))] ++
    (r.verification.map fun v => ("verification", v.toJson)).toList

end Report

end Amend
