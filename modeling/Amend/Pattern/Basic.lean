import Amend.Pattern.Reader
import Amend.Pattern.Search

/-!
# Patterns

A pattern is read once and then searched for in any number of texts.
-/

set_option autoImplicit false

namespace Amend

/-- A pattern: how it is written, what it matches, and the groups that have names. -/
structure Pattern where
  source : String
  regex : Regex
  names : List (String × Nat)
  program : Array Instr := regex.compile
  program_eq : program = regex.compile := by rfl

namespace Pattern

/-- The pattern that `source` writes, if its program fits into the limit. -/
def ofString? (source : String) (limit : Nat := Reading.maxWeight) : Except PatternError Pattern :=
  match read source.toList limit with
  | .ok (regex, names) => .ok { source, regex, names }
  | .error e => .error e

/-- The successive matches in a text, from left to right. -/
def matchesIn (p : Pattern) (text : List Char) : List Match :=
  allMatches p.program text.toArray

/-- Whether the pattern has a group of this name. -/
def hasName (p : Pattern) (name : String) : Bool :=
  (p.names.lookup name).isSome

/-- `text` as a pattern for itself: characters with a meaning of their own are escaped. -/
def escape (text : String) : String :=
  .ofList (text.toList.flatMap fun c => if isMeta c then ['\\', c] else [c])

end Pattern

/-- The characters of `text` from position `a` up to position `b`. -/
def slice (text : List Char) (a b : Nat) : List Char :=
  (text.drop a).take (b - a)

/-- The text of group `i` in a match, empty if the group took no part. -/
def Match.textOf (m : Match) (text : List Char) (i : Nat) : List Char :=
  match m.group? i with
  | some (a, b) => slice text a b
  | none => []

/-- The text of the group called `name` in a match of `p`. -/
def Pattern.textNamed (p : Pattern) (m : Match) (text : List Char) (name : String) : List Char :=
  match p.names.lookup name with
  | some i => m.textOf text i
  | none => []

end Amend
