import Amend.Pattern.Basic

/-!
# Replacement texts

A replacement text is put in the place of a match. In it `$1`, `$name`, `${1}` and `${name}` stand
for what the groups of the match hold, and `$$` stands for a dollar sign. Without braces a name is
as long as it can be. A dollar sign that starts none of these stands for itself.
-/

set_option autoImplicit false

namespace Amend

/-- The parts of a replacement text. -/
inductive ReplacementPart
  | char (c : Char)
  | group (index : Nat)
  | named (name : String)
  deriving DecidableEq, Repr

namespace Replacement

/-- The characters of names that stand without braces. -/
def isNameChar (c : Char) : Bool :=
  c.isAlphanum || c == '_'

/-- The number that `cs` writes: digits, perhaps after a plus sign, of a value below 2 ^ 64. -/
def number? (cs : List Char) : Option Nat :=
  let digits := if cs.head? = some '+' then cs.tail else cs
  let value := digits.foldl (fun n c => 10 * n + (c.toNat - '0'.toNat)) 0
  if digits.isEmpty || !digits.all Char.isDigit || UInt64.size ≤ value then none else some value

/-- What a name refers to: a number names a group by its position. -/
def reference (name : List Char) : ReplacementPart :=
  match number? name with
  | some i => .group i
  | none => .named (.ofList name)

/-- The parts of a replacement text. -/
def read : List Char → List ReplacementPart
  | [] => []
  | '$' :: '$' :: rest => .char '$' :: read rest
  | '$' :: '{' :: rest =>
    match h : rest.dropWhile (· != '}') with
    | [] => .char '$' :: .char '{' :: read rest
    | _ :: after =>
      have : after.length < rest.length := by
        have := (List.dropWhile_sublist (l := rest) (· != '}')).length_le
        rw [h] at this
        exact this
      reference (rest.takeWhile (· != '}')) :: read after
  | '$' :: rest =>
    let name := rest.takeWhile isNameChar
    if name.isEmpty then .char '$' :: read rest
    else
      have : (rest.dropWhile isNameChar).length ≤ rest.length :=
        (List.dropWhile_sublist _).length_le
      reference name :: read (rest.dropWhile isNameChar)
  | c :: rest => .char c :: read rest
termination_by cs => cs.length

/-- The text that a part stands for in a match. A group that the pattern lacks stands for
nothing. -/
def ofPart (p : Pattern) (m : Match) (text : List Char) : ReplacementPart → List Char
  | .char c => [c]
  | .group i => m.textOf text i
  | .named name => p.textNamed m text name

/-- The replacement text with its references replaced by what the match holds. -/
def expand (p : Pattern) (m : Match) (text : List Char) (replacement : String) : List Char :=
  (read replacement.toList).flatMap (ofPart p m text)

end Replacement

end Amend
