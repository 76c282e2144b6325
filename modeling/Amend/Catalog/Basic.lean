import Amend.Rule.Set

/-!
# Catalogs

A catalog binds files to rule sets. A file is known by the normal form of its path, and no file is
bound twice.
-/

set_option autoImplicit false

namespace Amend

/-- A field specification as it is written in a catalog. -/
structure FieldSpecDefinition where
  receiver : Option String
  accessor : Option String
  names : List String
  deriving DecidableEq, Repr

/-- The specification that is defined. -/
def FieldSpecDefinition.toSpec (d : FieldSpecDefinition) : FieldSpec :=
  ⟨d.receiver, d.accessor.getD FieldSpec.defaultAccessor, d.names⟩

/-- A rule set as it is written in a catalog: the same rules for each of its files. -/
structure RuleSetDefinition where
  name : String
  description : Option String
  files : List Path
  rules : List RuleDefinition
  fields : Option FieldSpecDefinition
  deriving DecidableEq, Repr

/-- A catalog as it is written. -/
structure CatalogDefinition where
  ruleSets : List RuleSetDefinition
  deriving DecidableEq, Repr

/-- The rule sets of a run in the order of their declaration, and what the names of sets are said
to be about, the latest first. -/
structure Catalog where
  sets : List RuleSet
  descriptions : List (String × String)

namespace Catalog

/-- The catalog without rule sets. -/
def empty : Catalog :=
  ⟨[], []⟩

/-- The set for a file. -/
def get? (c : Catalog) (file : Path) : Option RuleSet :=
  c.sets.find? fun set => set.file.normalize = file.normalize

/-- The files that are bound, in order. -/
def files (c : Catalog) : List Path :=
  c.sets.map RuleSet.file

/-- What the sets of this name are about. -/
def description? (c : Catalog) (name : String) : Option String :=
  c.descriptions.lookup name

/-- The catalog with one more set. -/
def insert (c : Catalog) (set : RuleSet) : Except ConfigFault Catalog :=
  match c.get? set.file with
  | some other => .error (.boundTwice set.file.normalize other.name set.name)
  | none => .ok { c with sets := c.sets ++ [set] }

/-- The catalog with what the sets called `name` are about. -/
def describe (c : Catalog) (name : String) : Option String → Catalog
  | some text => { c with descriptions := (name, text) :: c.descriptions }
  | none => c

/-- The catalog of these sets. -/
def ofRuleSets (sets : List RuleSet) : Except ConfigFault Catalog :=
  sets.foldlM insert empty

/-- The catalog with the sets that `d` defines, one for each of its files. -/
def insertDefinition (c : Catalog) (d : RuleSetDefinition) : Except ConfigFault Catalog := do
  if d.files.isEmpty then
    throw (.noFiles d.name)
  let rules ← d.rules.mapM RuleDefinition.toRule
  let fields := d.fields.map FieldSpecDefinition.toSpec
  let c ← d.files.foldlM (fun c file => do
    c.insert (← RuleSet.build d.name file.normalize rules fields)) c
  return c.describe d.name d.description

/-- The catalog that is defined. -/
def ofDefinition (d : CatalogDefinition) : Except ConfigFault Catalog :=
  d.ruleSets.foldlM insertDefinition empty

end Catalog

end Amend
