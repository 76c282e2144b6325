import Amend.Pattern.Class

/-!
# Reading patterns

`read` turns the text of a pattern into a regular expression. The text is read from left to right
with a stack of open groups; the flags in force decide on the way what each construct means.
-/

set_option autoImplicit false

namespace Amend.Pattern

/-- A finished piece of a pattern. -/
structure Piece where
  /-- What it matches; nothing for a directive such as `(?i)`, which cannot be repeated. -/
  regex : Option Regex
  /-- How deep constructs nest in it. -/
  depth : Nat
  /-- How much room its program takes; an instruction that reads a byte counts as one. -/
  weight : Nat

namespace Piece

/-- A piece without parts. -/
def leaf (r : Regex) (weight : Nat) : Piece :=
  ⟨some r, 0, weight⟩

def regexOf (p : Piece) : Regex :=
  p.regex.getD .empty

/-- Pieces one after the other. -/
def concat : List Piece → Piece
  | [] => .leaf .empty 1
  | [p] => ⟨some p.regexOf, p.depth, p.weight⟩
  | ps =>
    ⟨some (.concat (ps.filterMap Piece.regex)), (ps.foldl (fun d p => max d p.depth) 0) + 1,
      ps.foldl (fun w p => w + p.weight) 0⟩

/-- A choice between pieces, the earlier the better. -/
def oneOf : List Piece → Piece
  | [p] => p
  | ps =>
    ⟨some (.oneOf (ps.map regexOf)), (ps.foldl (fun d p => max d p.depth) 0) + 1,
      ps.foldl (fun w p => w + p.weight + 1) 0⟩

end Piece

/-- An open group: its number if it is remembered, and what was in force and read before it. The
lists hold the latest first. -/
structure Frame where
  index : Option Nat
  flags : Flags
  pieces : List Piece
  branches : List Piece

/-- How much room a program takes at most where no other limit is set: ten mebibytes, at 32 bytes
for an instruction. -/
def Reading.maxWeight : Nat := 327680

/-- What was read so far: the pieces of the current branch and the finished branches of the
innermost group, the latest first, and the open groups. -/
structure Reading where
  flags : Flags := {}
  pieces : List Piece := []
  branches : List Piece := []
  frames : List Frame := []
  /-- How many groups were numbered. -/
  groups : Nat := 0
  /-- The names of groups. -/
  names : List (String × Nat) := []
  /-- How much room the program may take. -/
  limit : Nat := Reading.maxWeight

namespace Reading

/-- The pieces and branches of the innermost group as a whole. -/
def whole (st : Reading) : Piece :=
  .oneOf ((Piece.concat st.pieces.reverse) :: st.branches).reverse

def push (st : Reading) (p : Piece) : Reading :=
  { st with pieces := p :: st.pieces }

/-- Opens a group; what it sets counts inside of it only. -/
def openGroup (st : Reading) (index : Option Nat) (flags : Flags) : Reading :=
  { st with
    flags
    pieces := []
    branches := []
    frames := ⟨index, st.flags, st.pieces, st.branches⟩ :: st.frames }

/-- Opens a group that is remembered. -/
def openNumbered (st : Reading) : Reading :=
  { st with groups := st.groups + 1 }.openGroup (some (st.groups + 1)) st.flags

/-- Closes the innermost group. -/
def closeGroup (st : Reading) : Except PatternError Reading :=
  match st.frames with
  | [] => .error .groupUnopened
  | frame :: rest =>
    let body := st.whole
    let regex :=
      match frame.index with
      | some i => .group i body.regexOf
      | none => body.regexOf
    .ok { st with
      flags := frame.flags
      pieces := ⟨some regex, body.depth + 1, body.weight + 2⟩ :: frame.pieces
      branches := frame.branches
      frames := rest }

/-- Ends a branch. -/
def nextBranch (st : Reading) : Reading :=
  { st with pieces := [], branches := Piece.concat st.pieces.reverse :: st.branches }

/-- Repeats the latest piece. -/
def repeatLast (st : Reading) (least : Nat) (most : Option Nat) (lazy : Bool) :
    Except PatternError Reading :=
  match st.pieces with
  | ⟨some r, depth, weight⟩ :: before =>
    let greedy := lazy == st.flags.swapGreed
    let weight := weight * max 1 (most.getD least) + (most.getD least - least) + 1
    if weight > st.limit then .error .tooLarge
    else .ok { st with pieces := ⟨some (.times greedy least most r), depth + 1, weight⟩ :: before }
  | _ => .error .nothingToRepeat

end Reading

/-! ## Groups -/

/-- Reads flags up to `:` or `)`: the flags, whether any were written, and the rest from that
character on. `seen` are the flags written so far, `off` says that a `-` was, and `pending` that
it was just now. -/
def readFlags (f : Flags) (seen : List Char) (off pending : Bool) :
    List Char → Except PatternError (Flags × Bool × List Char)
  | [] => .error .badFlags
  | c :: rest =>
    if c = ':' ∨ c = ')' then
      if pending then .error .badFlags else .ok (f, off || !seen.isEmpty, c :: rest)
    else if c = '-' then
      if off then .error .badFlags else readFlags f seen true true rest
    else if seen.contains c then .error .badFlags
    else
      match f.set? c (!off) with
      | some f => readFlags f (c :: seen) off false rest
      | none => .error .badFlags

/-- Whether `c` can stand in the name of a group. -/
def isNameChar (first : Bool) (c : Char) : Bool :=
  if first then c == '_' || Unicode.isAlphabetic c
  else c == '_' || c == '.' || c == '[' || c == ']' || Unicode.isAlphanumeric c

/-- Reads the name of a group up to `>`. -/
def readName (cs : List Char) : Except PatternError (String × List Char) :=
  let name := cs.takeWhile (· != '>')
  match name, cs.dropWhile (· != '>') with
  | c :: more, _ :: rest =>
    if isNameChar true c && more.all (isNameChar false) then .ok (.ofList name, rest)
    else .error .badGroupName
  | _, _ => .error .badGroupName

/-- Opens a group with a name. -/
def openNamed (st : Reading) (cs : List Char) : Except PatternError (Reading × List Char) :=
  match readName cs with
  | .error e => .error e
  | .ok (name, rest) =>
    if (st.names.lookup name).isSome then .error (.repeatedGroupName name)
    else
      let st := st.openNumbered
      .ok ({ st with names := (name, st.groups) :: st.names }, rest)

/-- Reads what follows `(`: the beginning of a group, or a directive as a whole. -/
def readOpening (st : Reading) (cs : List Char) : Except PatternError (Reading × List Char) :=
  match skip st.flags cs with
  | '?' :: 'P' :: '<' :: rest => openNamed st rest
  | '?' :: '=' :: _ | '?' :: '!' :: _ | '?' :: '<' :: '=' :: _ | '?' :: '<' :: '!' :: _ =>
    .error .lookAround
  | '?' :: '<' :: rest => openNamed st rest
  | '?' :: rest =>
    match readFlags st.flags [] false false rest with
    | .error e => .error e
    | .ok (f, _, ':' :: rest) => .ok (st.openGroup none f, rest)
    | .ok (f, any, rest) =>
      if any then .ok ({ st with flags := f }.push ⟨none, 0, 1⟩, rest.tail)
      else .error .nothingToRepeat
  | rest => .ok (st.openNumbered, rest)

/-! ## Repetition -/

/-- Reads the `?` that makes a repetition prefer as few rounds as it can. -/
def readLazy : List Char → Bool × List Char
  | '?' :: rest => (true, rest)
  | cs => (false, cs)

/-- Reads the digits of a bound, which blanks may surround; without digits the bound is absent. -/
def readBound (f : Flags) (cs : List Char) : Except PatternError (Option Nat × List Char) :=
  let rec digits : Nat → List Char → List Char → List Char × List Char
    | 0, acc, cs => (acc.reverse, cs)
    | fuel + 1, acc, cs =>
      match cs with
      | c :: rest => if c.isDigit then digits fuel (c :: acc) (skip f rest) else (acc.reverse, cs)
      | [] => (acc.reverse, [])
  let (ds, rest) := digits (cs.length + 1) [] (cs.dropWhile Unicode.isSpace)
  let rest := skip f (rest.dropWhile Unicode.isSpace)
  if ds.isEmpty then .ok (none, rest)
  else
    let n := ds.foldl (fun acc d => acc * 10 + (d.toNat - '0'.toNat)) 0
    if n < UInt32.size then .ok (some n, rest) else .error .badRepetition

/-- Reads the bounds of `{n}`, `{n,}` or `{n,m}` after the brace. -/
def readBounds (f : Flags) (cs : List Char) :
    Except PatternError (Nat × Option Nat × List Char) :=
  match readBound f (skip f cs) with
  | .error e => .error e
  | .ok (none, _) => .error .badRepetition
  | .ok (some least, '}' :: rest) => .ok (least, some least, rest)
  | .ok (some least, ',' :: rest) =>
    match skip f rest with
    | '}' :: rest => .ok (least, none, rest)
    | rest =>
      match readBound f rest with
      | .ok (some most, '}' :: rest) =>
        if least ≤ most then .ok (least, some most, rest) else .error .badRepetition
      | .ok _ => .error .badRepetition
      | .error e => .error e
  | .ok _ => .error .badRepetition

/-! ## The whole -/

/-- The piece that an atom outside of classes stands for. -/
def Atom.piece (f : Flags) : Atom → Except PatternError Piece
  | literal c byte =>
    match literalChar f c byte with
    | .ok c => .ok (.leaf (.set (foldCase f (· == c))) c.utf8Size)
    | .error e => .error e
  | assertion a => .ok (.leaf (.assert a) 1)
  | shorthand kind negated =>
    match shorthandSet f kind negated with
    | .ok s => .ok (.leaf (.set s) (shorthandWeight f))
    | .error e => .error e
  | property p negated =>
    match propertySet f p negated with
    | .ok s => .ok (.leaf (.set s) propertyWeight)
    | .error e => .error e

/-- Reads the rest of a pattern, construct by construct. -/
def readFrom : Nat → Reading → List Char → Except PatternError Reading
  | 0, _, _ => .error .tooLarge
  | fuel + 1, st, cs =>
    let repeating (least : Nat) (most : Option Nat) (rest : List Char) :=
      let (lazy, rest) := readLazy rest
      match st.repeatLast least most lazy with
      | .ok st => readFrom fuel st rest
      | .error e => .error e
    let pushing (piece : Except PatternError Piece) (rest : List Char) :=
      match piece with
      | .ok p => readFrom fuel (st.push p) rest
      | .error e => .error e
    match skip st.flags cs with
    | [] => .ok st
    | c :: rest =>
      match c with
      | '(' =>
        match readOpening st rest with
        | .ok (st, rest) => readFrom fuel st rest
        | .error e => .error e
      | ')' =>
        match st.closeGroup with
        | .ok st => readFrom fuel st rest
        | .error e => .error e
      | '|' => readFrom fuel st.nextBranch rest
      | '[' =>
        match readClass st.flags rest with
        | .ok (part, rest) =>
          readFrom fuel (st.push ⟨some (.set part.set), part.depth, part.weight⟩) rest
        | .error e => .error e
      | '?' => repeating 0 (some 1) rest
      | '*' => repeating 0 none rest
      | '+' => repeating 1 none rest
      | '{' =>
        if st.pieces.head?.any fun p => p.regex.isSome then
          match readBounds st.flags rest with
          | .ok (least, most, rest) => repeating least most (skip st.flags rest)
          | .error e => .error e
        else .error .nothingToRepeat
      | '\\' =>
        match readEscape st.flags rest with
        | .ok (atom, rest) => pushing (atom.piece st.flags) rest
        | .error e => .error e
      | '.' => pushing (st.flags.dot.map fun s => .leaf (.set s) complementWeight) rest
      | '^' => pushing (.ok (.leaf (.assert st.flags.caret) 1)) rest
      | '$' => pushing (.ok (.leaf (.assert st.flags.dollar) 1)) rest
      | c => pushing ((Atom.literal c false).piece st.flags) rest

/-- How deep constructs may nest. -/
def maxDepth : Nat := 250

/-- The expression of a pattern and the names of its groups. -/
def read (cs : List Char) (limit : Nat := Reading.maxWeight) :
    Except PatternError (Regex × List (String × Nat)) :=
  match readFrom (cs.length + 1) { limit } cs with
  | .error e => .error e
  | .ok st =>
    let whole := st.whole
    if !st.frames.isEmpty then .error .groupUnclosed
    else if whole.depth > maxDepth then .error .tooDeep
    else if whole.weight > limit then .error .tooLarge
    else
      -- a group that is repeated no times at all is not there, nor is its name
      let kept := whole.regexOf.groups
      .ok (whole.regexOf, st.names.reverse.filter fun n => kept.contains n.2)

end Amend.Pattern
