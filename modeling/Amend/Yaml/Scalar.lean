import Amend.Yaml.Cursor

/-!
# YAML scalars

The texts of scalars in their five spellings: plain, in single or double quotes, and as literal or
folded blocks. Each reader starts behind what introduces the scalar, and gives the text and the
cursor behind the scalar. The readers of several lines have fuel, one unit a line.
-/

set_option autoImplicit false

namespace Amend.Yaml

/-- How a scalar is spelled. -/
inductive ScalarStyle
  | plain | quoted | literal | folded
  deriving DecidableEq, Repr

/-- The gap between two words: blanks, or line breaks of which the first joins the lines. -/
structure Gap where
  blanks : List Char := []
  breaks : List (List Char) := []

namespace Gap

/-- Whether the gap goes on to another line. -/
def isFolded (g : Gap) : Bool := !g.breaks.isEmpty

/-- What the gap stands for in the text. A single line break stands for a blank. -/
def text (g : Gap) : List Char :=
  match g.breaks with
  | [] => g.blanks
  | first :: more =>
    if first == ['\n'] then (if more.isEmpty then [' '] else more.flatten)
    else first ++ more.flatten

/-- Reads on through a gap. Where `indent` is given, no tab may stand in the indentation of less
than that. Each unit of fuel takes a blank or a line break. -/
def read (indent : Option Int) : Nat → Gap → Cursor → Except YamlError (Gap × Cursor)
  | 0, g, c => .ok (g, c)
  | fuel + 1, g, c =>
    match c.next? with
    | none => .ok (g, c)
    | some ch =>
      if isBlank ch then
        if g.isFolded then
          if ch == '\t' && indent.any fun i => (c.column : Int) < i then .error .tabInIndentation
          else read indent fuel g (c.advance 1)
        else read indent fuel { g with blanks := g.blanks ++ [ch] } (c.advance 1)
      else if isBreak ch then
        let (br, c) := c.takeBreak
        read indent fuel { g with breaks := g.breaks ++ [br] } c
      else .ok (g, c)

end Gap

namespace Scalar

/-- The characters that structure flow collections. -/
def isFlowIndicator (c : Char) : Bool :=
  c == ',' || c == '[' || c == ']' || c == '\x7b' || c == '\x7d'

/-- The length of a word of a plain scalar. A colon before a gap ends it; in a flow collection a
flow indicator does too, and a colon may not stand before one. -/
def plainWord (flow : Bool) : List Char → Except YamlError Nat
  | [] => .ok 0
  | c :: cs =>
    if endsWord (some c) then .ok 0
    else if flow && c == ':' && cs.head?.any (fun d => isFlowIndicator d || d == '?') then
      .error .colonInFlow
    else if c == ':' && endsWord cs.head? || flow && isFlowIndicator c then .ok 0
    else (plainWord flow cs).map (· + 1)

/-- A plain scalar at `indent` or deeper, the gap before its next word read already. Besides text
and cursor: whether the cursor stands on a later line. -/
def plain (flow : Bool) (indent : Int) :
    Nat → List Char → Gap → Cursor → Except YamlError (List Char × Cursor × Bool)
  | 0, out, gap, c => .ok (out, c, gap.isFolded)
  | fuel + 1, out, gap, c =>
    if c.atDocumentMark || c.next? = some '#' then .ok (out, c, gap.isFolded)
    else
      match plainWord flow c.rest with
      | .error e => .error e
      | .ok n =>
        let word := c.rest.take n
        let out := if n = 0 then out else out ++ (gap.text ++ word)
        let gap := if n = 0 then gap else {}
        let c := c.advance n
        if c.next?.isNone || !endsWord c.next? then .ok (out, c, gap.isFolded)
        else
          match Gap.read (some indent) c.rest.length gap c with
          | .error e => .error e
          | .ok (gap, c) =>
            if !flow && (c.column : Int) < indent then .ok (out, c, gap.isFolded)
            else plain flow indent fuel out gap c

/-- The number that hexadecimal digits write. -/
def hexValue? (digits : List Char) : Option Nat :=
  digits.foldlM (fun n d =>
    if d.isDigit then some (16 * n + (d.toNat - '0'.toNat))
    else if 'a' ≤ d && d ≤ 'f' then some (16 * n + (d.toNat - 'a'.toNat + 10))
    else if 'A' ≤ d && d ≤ 'F' then some (16 * n + (d.toNat - 'A'.toNat + 10))
    else none) 0

/-- The character with a given number, if it has one. -/
def charOf? (n : Nat) : Option Char :=
  if n.isValidChar then some (Char.ofNat n) else none

/-- What an escape sequence stands for, and its length after the backslash. -/
def escape? (cs : List Char) : Option (Char × Nat) :=
  let coded (digits : Nat) : Option (Char × Nat) :=
    let ds := (cs.drop 1).take digits
    if ds.length = digits then
      (hexValue? ds).bind charOf? |>.map fun c => (c, digits + 1)
    else none
  match cs.head? with
  | some '0' => some ('\x00', 1)
  | some 'a' => some ('\x07', 1)
  | some 'b' => some ('\x08', 1)
  | some 't' | some '\t' => some ('\t', 1)
  | some 'n' => some ('\n', 1)
  | some 'v' => some ('\x0b', 1)
  | some 'f' => some ('\x0c', 1)
  | some 'r' => some ('\r', 1)
  | some 'e' => some ('\x1b', 1)
  | some ' ' => some (' ', 1)
  | some '"' => some ('"', 1)
  | some '/' => some ('/', 1)
  | some '\\' => some ('\\', 1)
  | some 'N' => some ('\u0085', 1)
  | some '_' => some ('\u00a0', 1)
  | some 'L' => some ('\u2028', 1)
  | some 'P' => some ('\u2029', 1)
  | some 'x' => coded 2
  | some 'u' => coded 4
  | some 'U' => coded 8
  | _ => none

/-- How a word inside quotes ends. -/
inductive WordEnd
  | gap
  /-- The closing quote, which is passed. -/
  | quote
  /-- An escaped line break, which is passed: the lines are joined without a blank. -/
  | joined

/-- A word inside quotes. Each unit of fuel takes one character or escape sequence. -/
def quotedWord (double : Bool) :
    Nat → List Char → Cursor → Except YamlError (List Char × Cursor × WordEnd)
  | 0, out, c => .ok (out.reverse, c, .gap)
  | fuel + 1, out, c =>
    match c.next? with
    | none => .ok (out.reverse, c, .gap)
    | some ch =>
      if endsWord (some ch) then .ok (out.reverse, c, .gap)
      else if !double && ch == '\'' && c.peek? 1 = some '\'' then
        quotedWord double fuel ('\'' :: out) (c.advance 2)
      else if ch == (if double then '"' else '\'') then .ok (out.reverse, c.advance 1, .quote)
      else if double && ch == '\\' then
        if (c.peek? 1).any isBreak then .ok (out.reverse, (c.advance 1).takeBreak.2, .joined)
        else
          match escape? (c.rest.drop 1) with
          | some (d, n) => quotedWord double fuel (d :: out) (c.advance (n + 1))
          | none => .error .badEscape
      else quotedWord double fuel (ch :: out) (c.advance 1)

/-- A scalar in quotes. -/
def quoted (double : Bool) : Nat → List Char → Cursor → Except YamlError (List Char × Cursor)
  | 0, _, _ => .error .unexpectedEnd
  | fuel + 1, out, c =>
    if c.atDocumentMark then .error .markInQuotes
    else if c.next?.isNone then .error .unexpectedEnd
    else
      match quotedWord double (c.rest.length + 1) [] c with
      | .error e => .error e
      | .ok (word, c, .quote) => .ok (out ++ word, c)
      | .ok (word, c, ending) =>
        let gap : Gap := match ending with
          | .joined => { breaks := [[]] }
          | _ => {}
        match Gap.read none c.rest.length gap c with
        | .error e => .error e
        | .ok (gap, c) => quoted double fuel (out ++ (word ++ gap.text)) c

/-- What becomes of the line breaks at the end of a block. -/
inductive Chomping
  | strip | clip | keep
  deriving DecidableEq, Repr

/-- The header of a block: its indentation, if that is given, and its chomping, in either order. -/
def blockHeader (c : Cursor) : Except YamlError (Option Nat × Chomping × Cursor) := do
  let chomping? (c : Cursor) : Option Chomping × Cursor :=
    match c.next? with
    | some '+' => (some .keep, c.advance 1)
    | some '-' => (some .strip, c.advance 1)
    | _ => (none, c)
  let indent? (c : Cursor) : Except YamlError (Option Nat × Cursor) :=
    match c.next? with
    | some d =>
      if d == '0' then .error .badBlockHeader
      else if d.isDigit then .ok (some (d.toNat - '0'.toNat), c.advance 1)
      else .ok (none, c)
    | none => .ok (none, c)
  let (first, c) := chomping? c
  let (indent, c) ← indent? c
  let (second, c) := if first.isNone && indent.isSome then chomping? c else (none, c)
  match c.skipToBreak? with
  | some c => return (indent, (first.or second).getD .clip, c)
  | none => throw .badBlockHeader

/-- The blank lines before a line of a block and the indentation of that line, up to `limit` if the
indentation is known. Also the largest column met. -/
def blockGap (limit : Option Nat) :
    Nat → List Char → Nat → Cursor → Except YamlError (List Char × Nat × Cursor)
  | 0, breaks, widest, c => .ok (breaks, widest, c)
  | fuel + 1, breaks, widest, c =>
    let blanks := (c.rest.takeWhile (· == ' ')).length
    let c := c.advance (match limit with
      | some n => min blanks (n - c.column)
      | none => blanks)
    let widest := max widest c.column
    if limit.all (c.column < ·) && c.next? = some '\t' then .error .tabInIndentation
    else if c.next?.any isBreak then
      let (br, c) := c.takeBreak
      blockGap limit fuel (breaks ++ br) widest c
    else .ok (breaks, widest, c)

/-- The lines of a block at `indent`: `lead` is the break after the line before, `trail` are the
blank lines after that, and `deep` tells whether that line started with a blank. -/
def blockLines (isLiteral : Bool) (indent : Nat) :
    Nat → List Char → List Char → List Char → Bool → Cursor →
      Except YamlError (List Char × List Char × List Char × Cursor)
  | 0, out, lead, trail, _, c => .ok (out, lead, trail, c)
  | fuel + 1, out, lead, trail, deep, c =>
    if c.column ≠ indent || c.next?.isNone then .ok (out, lead, trail, c)
    else
      let blank := c.next?.any isBlank
      let joint :=
        if !isLiteral && lead == ['\n'] && !deep && !blank then
          (if trail.isEmpty then [' '] else [])
        else lead
      let (line, c) := c.takeWhile (!isBreak ·)
      let (lead, c) := c.takeBreak
      match blockGap (some indent) (c.rest.length + 1) [] 0 c with
      | .error e => .error e
      | .ok (breaks, _, c) =>
        blockLines isLiteral indent fuel (out ++ (joint ++ (trail ++ line))) lead breaks blank c

/-- A literal or folded block inside a collection at indentation `parent`, which is -1 outside of
all collections. -/
def block (isLiteral : Bool) (parent : Int) (c : Cursor) :
    Except YamlError (List Char × Cursor) := do
  let (given, chomping, c) ← blockHeader c
  let fuel := c.rest.length + 1
  let limit := given.map fun n => (max parent 0).toNat + n
  let (breaks, widest, c) ← blockGap limit fuel [] 0 c
  let indent := limit.getD (max (max widest (parent + 1).toNat) 1)
  let (out, lead, trail, c) ← blockLines isLiteral indent fuel [] [] breaks false c
  let ending := match chomping with
    | .strip => []
    | .clip => lead
    | .keep => lead ++ trail
  return (out ++ ending, c)

end Scalar

end Amend.Yaml
