import Amend.Catalog.Basic
import Amend.Console.Style
import Amend.Run.Config

/-!
# Catalogs on the terminal

The rule sets of a catalog with their files and rules. Sets of the same name come from one
definition and are listed once.
-/

set_option autoImplicit false

namespace Amend

/-- Rule sets of the same name: the first one, and the others in order. -/
structure RuleSetGroup where
  first : RuleSet
  others : List RuleSet

namespace RuleSetGroup

def name (g : RuleSetGroup) : String :=
  g.first.name

def sets (g : RuleSetGroup) : List RuleSet :=
  g.first :: g.others

/-- The groups with one more set, in the group of its name or in a new one at the end. -/
def insert (set : RuleSet) : List RuleSetGroup → List RuleSetGroup
  | [] => [⟨set, []⟩]
  | g :: gs =>
    if g.name = set.name then { g with others := g.others ++ [set] } :: gs
    else g :: insert set gs

end RuleSetGroup

/-- The rule sets by name, in the order in which the names appear. -/
def Catalog.groups (c : Catalog) : List RuleSetGroup :=
  c.sets.foldl (fun groups set => RuleSetGroup.insert set groups) []

namespace Console

/-- A rule in a line: its id, what it does, its bound and its description. -/
def ruleLine (on : Bool) (r : Rule) : String :=
  let bound := match r.maxApplications with
    | some n => s!" max={n}"
    | none => ""
  let description := match r.description with
    | some text => "  " ++ Style.faint.paint on text
    | none => ""
  padRight 34 r.id ++ " " ++ padRight 16 s!"[{r.kind.label}]" ++ bound ++ description

/-- A group: its name, its description, its files and the rules that all of these have. -/
def groupLines (on : Bool) (c : Catalog) (g : RuleSetGroup) : List String :=
  ["", "  " ++ Style.cyan.paint on "▸" ++ " " ++ Style.yellow.strong.paint on g.name] ++
  ((c.description? g.name).map fun text => "    " ++ Style.faint.paint on text).toList ++
  (g.sets.map fun set => "    " ++ Style.faint.paint on "└─" ++ " " ++ set.file.text) ++
  (g.first.rules.map fun r => "      " ++ ruleLine on r)

/-- Where the listed rules come from. -/
def listingHeader (on : Bool) : CatalogSource → List String
  | .builtIn => ["", Style.plain.strong.paint on "Reglas activas (built-in catalog):"]
  | .file path =>
    ["", Style.plain.strong.paint on "Reglas activas:" ++ " " ++ Style.cyan.paint on path.text]

/-- The catalog of a source. -/
def listing (on : Bool) (source : CatalogSource) (c : Catalog) : List String :=
  listingHeader on source ++ c.groups.flatMap (groupLines on c) ++
  ["", s!"   Info: {c.sets.length} rule set(s). Order is the application order.",
    "   Set `catalog = \"path/to/rules.yaml\"` in .sentinel-fix.toml to use your own rules."]

end Console

end Amend
