/-!
# Paths

A path is a text whose segments are parted by slashes. Empty segments and `.` lead nowhere and are
passed over; `..` is kept, since what it leads to depends on the file tree.
-/

set_option autoImplicit false

namespace Amend

/-- A path as it is written. -/
structure Path where
  text : String
  deriving DecidableEq, Repr, Hashable

namespace Path

/-- The pieces of `cs` between slashes: one more than there are slashes. -/
def split : List Char → List (List Char)
  | [] => [[]]
  | c :: cs =>
    if c = '/' then [] :: split cs
    else
      match split cs with
      | [] => [[c]]
      | piece :: pieces => (c :: piece) :: pieces

/-- The pieces one after the other, with slashes between them. -/
def join : List (List Char) → List Char
  | [] => []
  | [piece] => piece
  | piece :: pieces => piece ++ '/' :: join pieces

/-- Whether a piece leads from a directory to itself. -/
def isIdle (piece : List Char) : Bool :=
  piece == [] || piece == ['.']

/-- Whether the path starts at the root. -/
def isAbsolute (p : Path) : Bool :=
  p.text.toList.head? == some '/'

/-- Whether the path ends in a slash, and so can only name a directory. -/
def endsInSlash (p : Path) : Bool :=
  p.text.toList.getLast? == some '/'

/-- The segments that lead somewhere, in order. -/
def segments (p : Path) : List (List Char) :=
  (split p.text.toList).filter fun piece => !isIdle piece

/-- The path of the given segments, from the root if `absolute`. -/
def ofSegments (absolute : Bool) (segments : List (List Char)) : Path :=
  ⟨.ofList (if absolute then '/' :: join segments else join segments)⟩

/-- The normal form: the segments that lead somewhere, with single slashes between them. -/
def normalize (p : Path) : Path :=
  ofSegments p.isAbsolute p.segments

/-- The path that `q` is when read from `p`. An absolute `q` stands for itself. -/
def append (p q : Path) : Path :=
  if q.isAbsolute || p.text.isEmpty then q
  else if p.endsInSlash then ⟨p.text ++ q.text⟩
  else ⟨p.text ++ "/" ++ q.text⟩

instance : HAppend Path Path Path := ⟨append⟩

/-- The pieces of a path as a head, which is there if the path starts with `/` or `.`, and a body
that ends in a piece that leads somewhere. -/
def parts (p : Path) : Option (List Char) × List (List Char) :=
  match split p.text.toList with
  | [] => (none, [])
  | first :: rest =>
    let trimEnd (pieces : List (List Char)) := (pieces.reverse.dropWhile isIdle).reverse
    if p.isAbsolute || first == ['.'] then (some first, trimEnd rest)
    else (none, trimEnd (first :: rest))

/-- The number of steps the path takes, counting a start at `/` or `.`. -/
def stepCount (p : Path) : Nat :=
  p.parts.1.toList.length + p.segments.length

/-- The path without its last step; nothing if it is empty or the root. -/
def parent? (p : Path) : Option Path :=
  match p.parts with
  | (none, []) => none
  | (some _, []) => if p.isAbsolute then none else some ⟨""⟩
  | (head, body) =>
    match head, (body.dropLast.reverse.dropWhile isIdle).reverse with
    | some [], [] => some ⟨"/"⟩
    | head, body => some ⟨.ofList (join (head.toList ++ body))⟩

/-- `parent?` again and again, at most `fuel` times. -/
def ancestorsWithin : Nat → Path → List Path
  | 0, p => [p]
  | fuel + 1, p =>
    p :: match p.parent? with
      | some q => ancestorsWithin fuel q
      | none => []

/-- The path itself, its parent, the parent of that and so on. A parent is a shorter text. -/
def ancestors (p : Path) : List Path :=
  ancestorsWithin p.text.length p

instance : ToString Path := ⟨Path.text⟩

end Path

end Amend
