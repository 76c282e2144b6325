import Amend.Console.Style
import Amend.Run.Report
import Amend.Unicode.Letter

/-!
# Reports on the terminal

Each function gives the lines that it prints, painted if `on`.
-/

set_option autoImplicit false

namespace Amend.Console

/-- Lines as the text that is printed. -/
def printed (lines : List String) : String :=
  String.join (lines.map (· ++ "\n"))

/-- What leads to the remark on the line above. -/
def branch : String := "      └─ "

/-- The lines before the outcomes. -/
def header (on dryRun : Bool) : List String :=
  ["", Style.brightCyan.strong.paint on "🛡️  Sentinel Fix",
    Style.brightCyan.paint on "━━━━━━━━━━━━━━━━━━━━━━━━━━━━━━━━━━━━━━━━"] ++
  (if dryRun then [Style.faint.paint on "   (dry run: no file will be written)"] else [])

/-- The sign of a status. -/
def marker (on : Bool) : OutcomeStatus → String
  | .rewritten => Style.green.paint on "✅"
  | .planned => Style.cyan.paint on "📝"
  | .unchanged => Style.faint.paint on "⏭️ "
  | .notFound => Style.yellow.paint on "⚠️ "
  | .readFailed | .writeFailed | .aborted => Style.red.paint on "❌"

/-- An outcome in a line: the path, the status, and how many rules fired how often. -/
def outcomeLine (o : Outcome) : String :=
  let error := match o.error with
    | some e => s!"  ({e})"
    | none => ""
  s!"{padRight 44 o.file.text} {padRight 13 o.status.label} {o.applied.length} rule(s), " ++
    s!"{o.replacements} replacement(s)" ++ error

/-- An outcome, and the rules that fired if `verbose`. -/
def outcome (on verbose : Bool) (o : Outcome) : List String :=
  let line := (if o.success then Style.plain else Style.red).paint on (outcomeLine o)
  [s!"   {marker on o.status} {line}"] ++
  (if verbose && !o.applied.isEmpty then
    [branch ++ Style.faint.paint on (", ".intercalate o.applied)] else [])

/-- The sums over all outcomes. -/
def summary (on : Bool) (r : Report) : List String :=
  let number (s : Style) (n : Nat) := s.paint on (toString n)
  let failed := number (if r.filesFailed > 0 then .red else .green) r.filesFailed
  ["", s!"   {number .cyan r.filesChanged} file(s) changed, " ++
    s!"{number .cyan r.totalReplacements} replacement(s), {failed} failed"]

/-- What the check command said. -/
def verification (on : Bool) (v : Option Verification) : List String :=
  (match v with
    | none =>
      ["   " ++ Style.faint.paint on "⏭️ " ++ " " ++ Style.faint.paint on "Verification skipped"]
    | some v =>
      if v.passed then
        ["   " ++ Style.green.paint on "✅" ++ " Verification passed (" ++
          Style.cyan.paint on v.command ++ ")"]
      else
        ["   " ++ Style.red.paint on "❌" ++ " " ++
          Style.red.strong.paint on "Verification failed"] ++
        (v.failure?.map fun f => branch ++ Style.red.paint on f.message).toList ++
        (if Unicode.isBlank v.output then []
          else ["", Style.faint.paint on (Unicode.trimEnd v.output)])) ++
  [""]

end Amend.Console
