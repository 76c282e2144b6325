import Amend.Path
import Amend.Toml.Document
import Amend.Unicode.Letter

/-!
# The configuration of a project

The configuration file of a project and what a run makes of it. Every setting has a default. What
is saved is read back as it was, with the current version.
-/

set_option autoImplicit false

namespace Amend

/-- The version of the program. -/
def currentVersion : String := "0.3.0"

/-- The name of configuration files. -/
def configFile : Path := ⟨".sentinel-fix.toml"⟩

/-- The check command where none is set. -/
def defaultCheckCommand : String := "cargo check"

/-- The settings of a project. -/
structure Config where
  version : String := currentVersion
  checkCommand : String := defaultCheckCommand
  /-- The files to rewrite; if there are none, those of the catalog. -/
  targets : List Path := []
  /-- A catalog to use instead of the built-in one. -/
  catalog : Option Path := none
  parallel : Bool := false
  verify : Bool := true
  deriving DecidableEq, Repr

namespace Config

/-! ## Reading -/

/-- The text under a key. -/
def textOf (key : String) : Toml.Item → Except TomlError String
  | .value (.text s) => .ok s
  | _ => .error (.wrongType key "string")

/-- The truth value under a key. -/
def boolOf (key : String) : Toml.Item → Except TomlError Bool
  | .value (.bool b) => .ok b
  | _ => .error (.wrongType key "boolean")

/-- The texts in an array. -/
def textsOfValues (key : String) : List Toml.Value → Except TomlError (List String)
  | [] => .ok []
  | .text s :: vs => (textsOfValues key vs).map (s :: ·)
  | _ :: _ => .error (.wrongType key "string")

/-- The list of texts under a key. -/
def textsOf (key : String) : Toml.Item → Except TomlError (List String)
  | .value (.array vs) => textsOfValues key vs
  | _ => .error (.wrongType key "array")

/-- What a key is set to, or its default. -/
def setting {α : Type} (members : Toml.Members) (key : String)
    (read : String → Toml.Item → Except TomlError α) (default : α) : Except TomlError α :=
  match members.lookup key with
  | some item => read key item
  | none => .ok default

/-- The settings in a table. Other keys mean nothing. -/
def ofMembers? (members : Toml.Members) : Except TomlError Config := do
  let base : Config := {}
  return {
    version := ← setting members "version" textOf base.version
    checkCommand := ← setting members "check_command" textOf base.checkCommand
    targets := (← setting members "targets" textsOf []).map Path.mk
    catalog := (← setting members "catalog" (fun k i => some <$> textOf k i) none).map Path.mk
    parallel := ← setting members "parallel" boolOf base.parallel
    verify := ← setting members "verify" boolOf base.verify }

/-- The settings brought up to date: the version is the current one, and a blank check command
means the default. -/
def migrate (c : Config) : Config :=
  { c with
    version := currentVersion
    checkCommand :=
      if Unicode.isBlank c.checkCommand then defaultCheckCommand else c.checkCommand }

/-- The settings in the text of a configuration file. -/
def ofText? (text : String) : Except TomlError Config := do
  return (← ofMembers? (← Toml.read text)).migrate

/-! ## Writing -/

/-- A list of texts: one item on the line of its key, and more on a line each. -/
def writeTexts (texts : List String) : List Char :=
  let items := texts.map fun s => Toml.Text.write s.toList
  match items with
  | [] => ['[', ']']
  | [item] => '[' :: (item ++ [']'])
  | items =>
    '[' :: '\n' :: (items.flatMap fun item => "    ".toList ++ item ++ [',', '\n']) ++ [']']

/-- A truth value. -/
def writeBool (b : Bool) : List Char :=
  (if b then "true" else "false").toList

/-- A key with its value, on a line. -/
def line (key : String) (value : List Char) : List Char :=
  key.toList ++ " = ".toList ++ value ++ ['\n']

/-- The text of a configuration file. -/
def toText (c : Config) : String :=
  .ofList <|
    line "version" (Toml.Text.write c.version.toList) ++
    line "check_command" (Toml.Text.write c.checkCommand.toList) ++
    line "targets" (writeTexts (c.targets.map Path.text)) ++
    (match c.catalog with
      | some file => line "catalog" (Toml.Text.write file.text.toList)
      | none => []) ++
    line "parallel" (writeBool c.parallel) ++
    line "verify" (writeBool c.verify)

end Config

/-- Where the rules of a run come from. -/
inductive CatalogSource
  | builtIn
  | file (path : Path)
  deriving DecidableEq, Repr

/-- Whether a run writes the files that it rewrites. -/
inductive WriteMode
  | inPlace | dryRun
  deriving DecidableEq, Repr

/-- All that a run depends on. -/
structure Settings where
  /-- Targets are relative to this directory. -/
  base : Path
  targets : List Path
  catalog : CatalogSource
  /-- The command that checks the result; without one nothing is checked. -/
  checkCommand : Option String
  mode : WriteMode
  parallel : Bool
  deriving DecidableEq, Repr

/-- The settings of a run in `base`. A catalog is looked for there. -/
def Settings.ofConfig (base : Path) (c : Config) : Settings where
  base
  targets := c.targets
  catalog := match c.catalog with
    | some file => .file (base ++ file)
    | none => .builtIn
  checkCommand := if c.verify then some c.checkCommand else none
  mode := .inPlace
  parallel := c.parallel

end Amend
