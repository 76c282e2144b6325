import Amend.Run.Config

/-!
# Wrong usage

Why a command line asks for nothing that the program could do, or only for information on it.
-/

set_option autoImplicit false

namespace Amend

/-- What ends the reading of a command line. -/
inductive Usage
  | help
  | version
  /-- An option without its value, or with one that is not allowed. -/
  | invalidValue
  | invalidSubcommand
  | unknownArgument
  /-- An option that is given twice. -/
  | argumentConflict
  /-- A value for an option that takes none. -/
  | tooManyValues
  deriving DecidableEq, Repr

namespace Usage

/-- Whether it is information that is asked for. -/
def isInformation : Usage → Bool
  | help | version => true
  | _ => false

/-- The exit code: asking for information is no error. -/
def exitCode (u : Usage) : Nat :=
  if u.isInformation then 0 else 2

/-- The name and the version of the program. -/
def versionLine : String :=
  "sentinel-fix " ++ currentVersion

/-- The text of the usage. -/
def message : Usage → String
  | help => String.join
      ["Rule-based rewriter for known compile errors\n\n",
        "Usage: sentinel-fix [OPTIONS] [COMMAND]\n\n",
        "Commands:\n",
        "  run     Rewrite the target files and run the check command\n",
        "  rules   List every rule set and its rules\n",
        "  doctor  Check config, catalog, target files and the check command\n",
        "  init    Write a default .sentinel-fix.toml\n"]
  | version => versionLine ++ "\n"
  | invalidValue => "error: invalid value for an argument\n"
  | invalidSubcommand => "error: unrecognized subcommand\n"
  | unknownArgument => "error: unexpected argument\n"
  | argumentConflict => "error: an argument cannot be used multiple times\n"
  | tooManyValues => "error: unexpected value for an argument\n"

end Usage

end Amend
