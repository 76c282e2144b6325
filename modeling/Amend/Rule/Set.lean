import Amend.Rule.FieldAccess

/-!
# Rule sets

The rules for one file. Rules for field access come right before the first scoped deletion, and no
two rules of a set have the same id.
-/

set_option autoImplicit false

namespace Amend

/-- The rules for a file, in the order in which they are applied. -/
structure RuleSet where
  name : String
  file : Path
  rules : List Rule

namespace RuleSet

/-- The set without rules, for a file that no other set is for. -/
def empty (file : Path) : RuleSet :=
  ⟨"none", file, []⟩

/-- The first id that the list has twice, as its second occurrence is met. -/
def firstRepeated (seen : List String) : List String → Option String
  | [] => none
  | id :: ids => if seen.contains id then some id else firstRepeated (id :: seen) ids

/-- Whether a rule may come before the rules for field access. -/
def precedesFields (r : Rule) : Bool :=
  r.kind != .scopedDeletion

/-- The declared rules with the rules for field access put in. -/
def arrange (rules fields : List Rule) : List Rule :=
  rules.takeWhile precedesFields ++ (fields ++ rules.dropWhile precedesFields)

/-- The set of the declared rules and the rules for field access. -/
def build (name : String) (file : Path) (rules : List Rule) (fields : Option FieldSpec) :
    Except ConfigFault RuleSet := do
  let expanded ← match fields with
    | some spec => spec.expand
    | none => .ok []
  let all := arrange rules expanded
  match firstRepeated [] (all.map Rule.id) with
  | some id => throw (.repeatedRuleId name file id)
  | none => return ⟨name, file, all⟩

end RuleSet

end Amend
