import Amend.Pattern.Basic

/-!
# Structural templates

A template builds its text around groups of the match, written as `{name}`. All else in it is
literal, and what a group holds is taken over as it stands.
-/

set_option autoImplicit false

namespace Amend

/-- The segments of a template. -/
inductive Segment
  | text (s : List Char)
  | capture (name : String)
  deriving DecidableEq, Repr

/-- What is wrong with a template. -/
inductive TemplateFault
  /-- A placeholder names no group of the pattern. -/
  | unknownGroup (name : String)
  /-- There is no placeholder. -/
  | noCapture
  deriving DecidableEq, Repr

/-- A template, with its source cut into segments. -/
structure Template where
  segments : List Segment
  deriving DecidableEq, Repr

/-- A letter of ASCII or `_`. -/
def isIdentifierStart (c : Char) : Bool :=
  c.isAlpha || c == '_'

/-- A letter or digit of ASCII or `_`. -/
def isIdentifierChar (c : Char) : Bool :=
  c.isAlphanum || c == '_'

/-- Whether `cs` is an identifier of ASCII characters. -/
def isIdentifier : List Char → Bool
  | [] => false
  | c :: cs => isIdentifierStart c && cs.all isIdentifierChar

namespace Template

/-- The name in a placeholder and what follows it, if a placeholder follows its opening brace. -/
def placeholder? (cs : List Char) : Option (List Char × List Char) :=
  let name := cs.takeWhile isIdentifierChar
  match cs.dropWhile isIdentifierChar with
  | '}' :: rest => if isIdentifier name then some (name, rest) else none
  | _ => none

/-- `c` before the segments, as part of a text that they start with. -/
def consChar (c : Char) : List Segment → List Segment
  | .text s :: segments => .text (c :: s) :: segments
  | segments => .text [c] :: segments

theorem placeholder?_length {cs name rest : List Char} (h : placeholder? cs = some (name, rest)) :
    rest.length < cs.length := by
  have hle := (List.dropWhile_sublist (l := cs) isIdentifierChar).length_le
  unfold placeholder? at h
  split at h
  · next r hr =>
    simp only [hr, List.length_cons] at hle
    grind
  · simp at h

/-- The segments of a source. A brace that opens no placeholder is text. -/
def segmentsOf : List Char → List Segment
  | [] => []
  | c :: cs =>
    if c = '{' then
      match h : placeholder? cs with
      | some (name, rest) =>
        have := placeholder?_length h
        .capture (.ofList name) :: segmentsOf rest
      | none => consChar c (segmentsOf cs)
    else consChar c (segmentsOf cs)
termination_by cs => cs.length
decreasing_by all_goals grind

/-- The names in the placeholders, in order. -/
def captures (segments : List Segment) : List String :=
  segments.filterMap fun
    | .capture name => some name
    | .text _ => none

/-- The template that `source` writes for a pattern. -/
def ofString? (pattern : Pattern) (source : String) : Except TemplateFault Template :=
  let segments := segmentsOf source.toList
  match (captures segments).find? fun name => !pattern.hasName name with
  | some name => .error (.unknownGroup name)
  | none => if (captures segments).isEmpty then .error .noCapture else .ok ⟨segments⟩

/-- The text that the template builds from a match. -/
def render (t : Template) (p : Pattern) (m : Match) (text : List Char) : List Char :=
  t.segments.flatMap fun
    | .text s => s
    | .capture name => p.textNamed m text name

end Template

end Amend
