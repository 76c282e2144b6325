import Amend.Fault
import Amend.Rule.Replacement

/-!
# Rules

A rule looks for a pattern and rewrites what it finds, in one of three ways. It may be bounded: then
only the first matches are rewritten. A scoped deletion is always bounded, and it always leaves the
last match.
-/

set_option autoImplicit false

namespace Amend

/-- How often a rule may be applied to a text: at least once. -/
structure Bound where
  count : Nat
  count_pos : 0 < count

/-- The bound of `n`, which must not be zero. -/
def Bound.ofNat? (n : Nat) : Option Bound :=
  if h : 0 < n then some ⟨n, h⟩ else none

/-- What a rule does with a match. -/
inductive Strategy
  /-- Put a replacement text in its place. -/
  | substitution (replacement : String) (most : Option Bound)
  /-- Build a new text around parts of it. -/
  | structural (template : Template) (most : Option Bound)
  /-- Remove it. -/
  | scopedDeletion (most : Bound)

/-- The three ways of rewriting. -/
inductive StrategyKind
  | substitution | structural | scopedDeletion
  deriving DecidableEq, Repr

/-- The name of a way of rewriting. -/
def StrategyKind.label : StrategyKind → String
  | substitution => "substitution"
  | structural => "structural"
  | scopedDeletion => "scoped-deletion"

namespace Strategy

def kind : Strategy → StrategyKind
  | substitution .. => .substitution
  | structural .. => .structural
  | scopedDeletion .. => .scopedDeletion

/-- The bound, if there is one. -/
def most? : Strategy → Option Nat
  | substitution _ most | structural _ most => most.map Bound.count
  | scopedDeletion most => some most.count

/-- How many of `n` matches are rewritten. -/
def limit (s : Strategy) (n : Nat) : Nat :=
  match s with
  | substitution _ most | structural _ most => most.elim n (min ·.count n)
  | scopedDeletion most => min most.count (n - 1)

/-- What takes the place of a match. -/
def rewrite (s : Strategy) (p : Pattern) (text : List Char) (m : Match) : List Char :=
  match s with
  | substitution replacement _ => Replacement.expand p m text replacement
  | structural template _ => template.render p m text
  | scopedDeletion _ => []

end Strategy

/-- A rule for rewriting a text. -/
structure Rule where
  id : String
  description : Option String
  pattern : Pattern
  strategy : Strategy

/-- A span of a text and what takes its place. -/
structure Edit where
  start : Nat
  stop : Nat
  new : List Char
  deriving DecidableEq, Repr

/-- The text that starts at position `pos` with the edits made, which follow each other in it. -/
def splice (pos : Nat) (text : List Char) : List Edit → List Char
  | [] => text
  | e :: edits =>
    text.take (e.start - pos) ++ (e.new ++ splice e.stop (text.drop (e.stop - pos)) edits)

namespace Rule

def kind (r : Rule) : StrategyKind := r.strategy.kind

def maxApplications (r : Rule) : Option Nat := r.strategy.most?

/-- The edits that the rule makes in a text. -/
def edits (r : Rule) (text : List Char) : List Edit :=
  let found := r.pattern.matchesIn text
  (found.take (r.strategy.limit found.length)).map fun m =>
    ⟨m.start, m.stop, r.strategy.rewrite r.pattern text m⟩

/-- The text after the rule, and the number of matches that it rewrote. -/
def apply (r : Rule) (text : List Char) : List Char × Nat :=
  let edits := r.edits text
  (splice 0 text edits, edits.length)

/-- What a rule that fired did: how often, and the text after it. -/
structure Step where
  rule : String
  count : Nat
  text : List Char
  deriving DecidableEq, Repr

/-- The rules applied one after the other: the steps of those that fired. -/
def trace : List Rule → List Char → List Step
  | [], _ => []
  | r :: rs, text =>
    let (out, n) := r.apply text
    if n = 0 then trace rs text else ⟨r.id, n, out⟩ :: trace rs out

end Rule

/-- The result of applying rules to a text. -/
structure Rewrite where
  text : List Char
  /-- The rules that fired, in order. -/
  applied : List String
  replacements : Nat
  deriving DecidableEq, Repr

/-- The result of the steps made from `text`. -/
def Rewrite.ofSteps (text : List Char) (steps : List Rule.Step) : Rewrite where
  text := (steps.getLast?.map (·.text)).getD text
  applied := steps.map (·.rule)
  replacements := steps.foldr (·.count + ·) 0

/-- The rules applied to `text` one after the other, each to what the one before left. -/
def Rule.applyAll (rules : List Rule) (text : List Char) : Rewrite :=
  .ofSteps text (trace rules text)

end Amend
