import Amend.Yaml.Error

/-!
# Reading positions in YAML text

A cursor stands before a character of a text and knows its line and column. Lines end with `\r\n`,
`\r`, `\n`, NEL, or the line and paragraph separators of Unicode.
-/

set_option autoImplicit false

namespace Amend.Yaml

/-- Whether `c` may occur in a document at all. -/
def isAllowed (c : Char) : Bool :=
  let n := c.toNat
  n == 0x09 || n == 0x0A || n == 0x0D || 0x20 ≤ n && n ≤ 0x7E || n == 0x85 ||
    0xA0 ≤ n && n ≤ 0xFFFD || 0x10000 ≤ n

/-- The characters that end lines. -/
def isBreak (c : Char) : Bool :=
  c == '\n' || c == '\r' || c == '\u0085' || c == '\u2028' || c == '\u2029'

def isBlank (c : Char) : Bool :=
  c == ' ' || c == '\t'

/-- The characters of names. -/
def isWordChar (c : Char) : Bool :=
  c.isAlphanum || c == '_' || c == '-'

/-- Whether a line or the text ends here. -/
def endsLine (next : Option Char) : Bool :=
  next.all isBreak

/-- Whether there is a gap here: a blank, or the end of a line or of the text. -/
def endsWord (next : Option Char) : Bool :=
  next.all fun c => isBlank c || isBreak c

/-- A position in a text. -/
structure Cursor where
  rest : List Char
  /-- The number of characters passed. -/
  index : Nat
  line : Nat
  column : Nat

namespace Cursor

/-- The start of a text. -/
def ofText (text : List Char) : Cursor :=
  ⟨text, 0, 0, 0⟩

def next? (c : Cursor) : Option Char :=
  c.rest.head?

/-- The character `i` places after the next one. -/
def peek? (c : Cursor) (i : Nat) : Option Char :=
  c.rest[i]?

/-- Past `n` characters of this line. -/
def advance (c : Cursor) (n : Nat) : Cursor :=
  { c with rest := c.rest.drop n, index := c.index + n, column := c.column + n }

/-- Past the characters of this line that satisfy `p`, which no line end does. -/
def skipWhile (c : Cursor) (p : Char → Bool) : Cursor :=
  c.advance (c.rest.takeWhile p).length

/-- The characters that satisfy `p`, and the cursor after them. -/
def takeWhile (c : Cursor) (p : Char → Bool) : List Char × Cursor :=
  let cs := c.rest.takeWhile p
  (cs, c.advance cs.length)

/-- Past the end of a line, if the line ends here, and what it stands for in a text. -/
def takeBreak (c : Cursor) : List Char × Cursor :=
  let past (n : Nat) : Cursor := ⟨c.rest.drop n, c.index + n, c.line + 1, 0⟩
  match c.rest with
  | '\r' :: '\n' :: _ => (['\n'], past 2)
  | ch :: _ =>
    if ch == '\u2028' || ch == '\u2029' then ([ch], past 1)
    else if isBreak ch then (['\n'], past 1)
    else ([], c)
  | [] => ([], c)

/-- Past the blanks and the comment at the end of a line; nothing else may stand there. -/
def skipToBreak? (c : Cursor) : Option Cursor :=
  let c := c.skipWhile isBlank
  let c := if c.next? = some '#' then c.skipWhile (!isBreak ·) else c
  if endsLine c.next? then some c.takeBreak.2 else none

/-- Whether the line starts with `mark`, three times, as a word of its own. -/
def atMark (c : Cursor) (mark : Char) : Bool :=
  c.column == 0 && c.rest.take 3 == [mark, mark, mark] && endsWord (c.peek? 3)

/-- Whether a document starts or ends with this line. -/
def atDocumentMark (c : Cursor) : Bool :=
  c.atMark '-' || c.atMark '.'

end Cursor

end Amend.Yaml
