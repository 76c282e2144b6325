import Amend.Rule.Basic

/-!
# Rules as they are defined

A definition says what a rule looks for and declares one way of rewriting. It becomes a rule if it
is well formed.
-/

set_option autoImplicit false

namespace Amend

/-- A rule as it is written in a catalog. -/
structure RuleDefinition where
  id : String
  description : Option String
  pattern : String
  /-- The pattern is plain text. -/
  exact : Bool
  replace : Option String
  wrap : Option String
  delete : Bool
  maxApplications : Option Nat
  deriving DecidableEq, Repr

/-- The pattern of a rule, which must not be empty. -/
def compile (source : String) : Except RuleFault Pattern :=
  if source.isEmpty then .error .emptyPattern
  else (Pattern.ofString? source).mapError .malformedPattern

namespace RuleDefinition

/-- The pattern as a pattern, also where it is plain text. -/
def patternSource (d : RuleDefinition) : String :=
  if d.exact then Pattern.escape d.pattern else d.pattern

/-- Ids are not blank. -/
def checkId (d : RuleDefinition) : Except ConfigFault Unit :=
  if Unicode.isBlank d.id then .error .blankRuleId else .ok ()

/-- The bound of a rule that declares `n`. -/
def bound (n : Nat) : Except RuleFault Bound :=
  match Bound.ofNat? n with
  | some most => .ok most
  | none => .error .zeroBound

/-- The bound of a rule that need not have one. -/
def bound? : Option Nat → Except RuleFault (Option Bound)
  | some n => (bound n).map some
  | none => .ok none

/-- The rule that is defined. -/
def toRule (d : RuleDefinition) : Except ConfigFault Rule := do
  let ofRule {α : Type} (x : Except RuleFault α) := x.mapError (ConfigFault.rule d.id)
  match d.replace, d.wrap, d.delete with
  | some replacement, none, false =>
    let pattern ← ofRule (compile d.patternSource)
    d.checkId
    let most ← ofRule (bound? d.maxApplications)
    return ⟨d.id, d.description, pattern, .substitution replacement most⟩
  | none, some source, false =>
    let pattern ← ofRule (compile d.patternSource)
    let template ← ofRule ((Template.ofString? pattern source).mapError .template)
    d.checkId
    let most ← ofRule (bound? d.maxApplications)
    return ⟨d.id, d.description, pattern, .structural template most⟩
  | none, none, true =>
    let n ← ofRule (match d.maxApplications with
      | some n => .ok n
      | none => .error .missingBound)
    let pattern ← ofRule (compile d.patternSource)
    d.checkId
    let most ← ofRule (bound n)
    return ⟨d.id, d.description, pattern, .scopedDeletion most⟩
  | _, _, _ => throw (.rule d.id .strategyCount)

end RuleDefinition

end Amend
