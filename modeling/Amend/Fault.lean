import Amend.FileTree.Error
import Amend.Path
import Amend.Pattern.Error
import Amend.Rule.Template
import Amend.Toml.Error
import Amend.Yaml.Error

/-!
# Faults

What can be wrong with a rule, with the configuration as a whole, and with a run. Only faults of
the configuration stop a run; the others concern one file or the check after the run.
-/

set_option autoImplicit false

namespace Amend

/-- What is wrong with a single rule. -/
inductive RuleFault
  /-- A rule replaces, wraps or deletes: it declares exactly one of the three. -/
  | strategyCount
  /-- A deletion is always bounded. -/
  | missingBound
  | emptyPattern
  | malformedPattern (e : PatternError)
  | template (fault : TemplateFault)
  | zeroBound
  /-- Any other fault, in its own words. -/
  | other (text : String)
  deriving DecidableEq, Repr

/-- The wording of a fault. -/
def RuleFault.message : RuleFault → String
  | strategyCount => "declare exactly one of `replace`, `wrap` or `delete`"
  | missingBound => "`delete` requires max_applications"
  | emptyPattern => "pattern must not be empty"
  | malformedPattern e => "malformed pattern: " ++ e.message
  | template (.unknownGroup name) =>
    "template uses \x7b" ++ name ++ "\x7d but the pattern has no group named '" ++ name ++ "'"
  | template .noCapture =>
    "structural template re-emits no capture; use a substitution instead"
  | zeroBound => "max_applications must be at least 1"
  | other text => text

/-- The two kinds of names in a field specification. -/
inductive FieldRole
  | receiver | field
  deriving DecidableEq, Repr

/-- The wording of a role. -/
def FieldRole.label : FieldRole → String
  | receiver => "receiver"
  | field => "field"

/-- What is wrong with the configuration. -/
inductive ConfigFault
  | rule (id : String) (fault : RuleFault)
  | blankRuleId
  /-- The accessor of field rules must mention the receiver. -/
  | accessorWithoutReceiver (accessor : String)
  | notIdentifier (role : FieldRole) (name : String)
  | repeatedRuleId (set : String) (file : Path) (id : String)
  | noFiles (set : String)
  /-- Two rule sets claim the same file. -/
  | boundTwice (file : Path) (first second : String)
  | unreadableCatalog (file : Path) (e : FileError)
  | malformedCatalog (e : YamlError)
  | unreadableConfig (file : Path) (e : FileError)
  | malformedConfig (file : Path) (e : TomlError)
  /-- Any other fault, in its own words. -/
  | other (text : String)
  deriving DecidableEq, Repr

/-- The wording of a fault. -/
def ConfigFault.message : ConfigFault → String
  | rule id fault => s!"rule '{id}': {fault.message}"
  | blankRuleId => "rule id must not be empty"
  | accessorWithoutReceiver accessor =>
    "field accessor '" ++ accessor ++ "' must contain \x7breceiver\x7d"
  | notIdentifier role name => s!"{role.label} name '{name}' is not a plain identifier"
  | repeatedRuleId set file id =>
    s!"rule set '{set}' ({file}) declares rule id '{id}' more than once"
  | noFiles set => s!"rule set '{set}' does not name any file"
  | boundTwice file first second => s!"{file} is bound to both '{first}' and '{second}'"
  | unreadableCatalog file e => s!"cannot read catalog {file}: {e.message}"
  | malformedCatalog e => "invalid rule catalog: " ++ e.message
  | unreadableConfig file e => s!"cannot read {file}: {e.message}"
  | malformedConfig file e => s!"invalid {file}: {e.message}"
  | other text => text

/-- Why something did not work. -/
inductive Failure
  | configuration (fault : ConfigFault)
  | fileNotFound (path : Path)
  | readFailure (path : Path) (e : FileError)
  | writeFailure (path : Path) (e : FileError)
  | verificationFailure (command reason : String)
  deriving DecidableEq, Repr

namespace Failure

/-- The wording of a failure. -/
def message : Failure → String
  | configuration fault => "configuration error: " ++ fault.message
  | fileNotFound path => s!"file not found: {path}"
  | readFailure path e => s!"failed to read {path}: {e.message}"
  | writeFailure path e => s!"failed to write {path}: {e.message}"
  | verificationFailure command reason => s!"verification failed: `{command}` {reason}"

/-- Whether the failure stops a run before any file is touched. -/
def isFatal : Failure → Bool
  | configuration _ => true
  | _ => false

/-- The fault of a file operation behind the failure. -/
def cause? : Failure → Option FileError
  | readFailure _ e | writeFailure _ e => some e
  | _ => none

/-- The wording of a failure, followed by that of its cause. -/
def messageWithCause (f : Failure) : String :=
  match f.cause? with
  | some e => s!"{f.message}: {e.message}"
  | none => f.message

/-- The exit code of a program that this failure ends. -/
def exitCode (f : Failure) : Nat :=
  if f.isFatal then 2 else 1

end Failure

end Amend
