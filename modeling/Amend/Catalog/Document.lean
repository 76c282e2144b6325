import Amend.Catalog.BuiltIn
import Amend.Yaml.Node

/-!
# Catalogs as YAML documents
-/

set_option autoImplicit false

namespace Amend

open Yaml

/-- A rule in a document. -/
def RuleDefinition.ofNode? (n : Node) : Except YamlError RuleDefinition := do
  let ms ← n.members? ["id", "description", "pattern", "exact", "replace", "wrap", "delete",
    "max_applications"]
  return {
    id := ← Node.required? ms "id" Node.text?
    description := ← Node.default? ms "description" (Node.optional? Node.text?) none
    pattern := ← Node.required? ms "pattern" Node.text?
    exact := ← Node.default? ms "exact" Node.bool? false
    replace := ← Node.default? ms "replace" (Node.optional? Node.text?) none
    wrap := ← Node.default? ms "wrap" (Node.optional? Node.text?) none
    delete := ← Node.default? ms "delete" Node.bool? false
    maxApplications := ← Node.default? ms "max_applications" (Node.optional? Node.nat?) none }

/-- A field specification in a document. -/
def FieldSpecDefinition.ofNode? (n : Node) : Except YamlError FieldSpecDefinition := do
  let ms ← n.members? ["receiver", "accessor", "names"]
  return {
    receiver := ← Node.default? ms "receiver" (Node.optional? Node.text?) none
    accessor := ← Node.default? ms "accessor" (Node.optional? Node.text?) none
    names := ← Node.required? ms "names" (Node.list? Node.text?) }

/-- A rule set in a document. -/
def RuleSetDefinition.ofNode? (n : Node) : Except YamlError RuleSetDefinition := do
  let ms ← n.members? ["name", "description", "files", "rules", "fields"]
  return {
    name := ← Node.required? ms "name" Node.text?
    description := ← Node.default? ms "description" (Node.optional? Node.text?) none
    files := ← Node.required? ms "files" (Node.list? fun n => Path.mk <$> n.text?)
    rules := ← Node.default? ms "rules" (Node.list? RuleDefinition.ofNode?) []
    fields := ← Node.default? ms "fields" (Node.optional? FieldSpecDefinition.ofNode?) none }

/-- A catalog in a document. -/
def CatalogDefinition.ofNode? (n : Node) : Except YamlError CatalogDefinition := do
  let ms ← n.members? ["rule_sets"]
  return ⟨← Node.required? ms "rule_sets" (Node.list? RuleSetDefinition.ofNode?)⟩

/-- The definition in a text. -/
def CatalogDefinition.ofYaml? (text : String) : Except YamlError CatalogDefinition := do
  ofNode? (← Node.ofText? text)

/-- The catalog in a text. -/
def Catalog.ofYaml? (text : String) : Except ConfigFault Catalog := do
  Catalog.ofDefinition (← (CatalogDefinition.ofYaml? text).mapError .malformedCatalog)

end Amend
