import Amend.Toml.Error

/-!
# TOML strings

A text can be written in four ways: in double quotes, where control characters, quotes and
backslashes are escaped, or in single quotes, where everything stands for itself; and each of both
also in triple quotes, over several lines. `write` chooses the plainest way that the text admits,
and `read` reads all of them.
-/

set_option autoImplicit false

namespace Amend.Toml

/-- The characters that text cannot hold as they stand, besides tabs and line ends. -/
def isControl (c : Char) : Bool :=
  c.toNat < 0x20 || c.toNat == 0x7F

/-- Whether `c` can stand for itself within a line. -/
def isPlain (c : Char) : Bool :=
  c == '\t' || !isControl c

/-- A reader takes a value from the front of a text and leaves the rest. -/
abbrev Reading (α : Type) := Except TomlError (α × List Char)

/-- `c` in front of the text that is read. -/
def Reading.cons (c : Char) (r : Reading (List Char)) : Reading (List Char) :=
  r.map fun (text, rest) => (c :: text, rest)

namespace Text

/-! ## Writing -/

/-- The four ways of writing a text. -/
inductive Quoting
  | basic | literal | multiBasic | multiLiteral
  deriving DecidableEq, Repr

/-- Whether `quote` stands three times in a row. -/
def hasTriple (quote : Char) : List Char → Bool
  | a :: b :: c :: rest =>
    (a == quote && b == quote && c == quote) || hasTriple quote (b :: c :: rest)
  | _ => false

/-- The way in which a text is written. -/
def quoting (text : List Char) : Quoting :=
  let lines := text.contains '\n'
  let controlled := text.any fun c => isControl c && c != '\t' && c != '\n'
  let escaped := controlled || text.contains '\\'
  if !escaped && !text.contains '"' && !lines then .basic
  else if !controlled && !text.contains '\'' && !lines then .literal
  else if !escaped && !hasTriple '"' text then .multiBasic
  else if !controlled && !hasTriple '\'' text then .multiLiteral
  else if lines then .multiBasic
  else .basic

/-- The upper-case hexadecimal digit of a number below 16. -/
def hexDigit (n : Nat) : Char :=
  if n < 10 then Char.ofNat ('0'.toNat + n) else Char.ofNat ('A'.toNat + (n - 10))

/-- A character other than a quote inside double quotes, three of them if `multi`. -/
def escapeChar (multi : Bool) (c : Char) : List Char :=
  match c with
  | '\x08' => ['\\', 'b']
  | '\t' => ['\\', 't']
  | '\n' => if multi then ['\n'] else ['\\', 'n']
  | '\x0c' => ['\\', 'f']
  | '\r' => ['\\', 'r']
  | '\\' => ['\\', '\\']
  | c =>
    if isControl c then
      ['\\', 'u', '0', '0', hexDigit (c.toNat / 16), hexDigit (c.toNat % 16)]
    else [c]

/-- A text inside double quotes. Inside three of them, up to two quotes in a row stand as they
are: `quotes` of these are written already. -/
def escape (multi : Bool) (quotes : Nat) : List Char → List Char
  | [] => []
  | '"' :: rest =>
    if multi && quotes < 2 then '"' :: escape multi (quotes + 1) rest
    else '\\' :: '"' :: escape multi 0 rest
  | c :: rest => escapeChar multi c ++ escape multi 0 rest

/-- A line end after the opening quotes of a text of several lines. -/
def opening (text : List Char) : List Char :=
  if text.contains '\n' then ['\n'] else []

/-- A text in quotes. -/
def write (text : List Char) : List Char :=
  match quoting text with
  | .basic => '"' :: (escape false 0 text ++ ['"'])
  | .literal => '\'' :: (text ++ ['\''])
  | .multiBasic =>
    ['"', '"', '"'] ++ opening text ++ escape true 0 text ++ ['"', '"', '"']
  | .multiLiteral => ['\'', '\'', '\''] ++ opening text ++ text ++ ['\'', '\'', '\'']

/-! ## Reading -/

/-- The value of a hexadecimal digit. -/
def hexValue? (c : Char) : Option Nat :=
  if c.isDigit then some (c.toNat - '0'.toNat)
  else if 'a' ≤ c && c ≤ 'f' then some (c.toNat - 'a'.toNat + 10)
  else if 'A' ≤ c && c ≤ 'F' then some (c.toNat - 'A'.toNat + 10)
  else none

/-- The number that hexadecimal digits write. -/
def hexNumber? (digits : List Char) : Option Nat :=
  digits.foldlM (fun n c => (hexValue? c).map (16 * n + ·)) 0

/-- What an escape sequence stands for, and the length of the sequence after its backslash. -/
def escaped? : List Char → Option (Char × Nat)
  | 'b' :: _ => some ('\x08', 1)
  | 't' :: _ => some ('\t', 1)
  | 'n' :: _ => some ('\n', 1)
  | 'f' :: _ => some ('\x0c', 1)
  | 'r' :: _ => some ('\r', 1)
  | '"' :: _ => some ('"', 1)
  | '\\' :: _ => some ('\\', 1)
  | 'u' :: rest => coded 4 rest
  | 'U' :: rest => coded 8 rest
  | _ => none
where
  coded (digits : Nat) (rest : List Char) : Option (Char × Nat) :=
    if digits ≤ rest.length then do
      let n ← hexNumber? (rest.take digits)
      if n.isValidChar then some (Char.ofNat n, digits + 1) else none
    else none

/-- The rest of a text in double quotes. -/
def readBasic : List Char → Reading (List Char)
  | [] => .error .unclosedText
  | '"' :: rest => .ok ([], rest)
  | '\\' :: rest =>
    match escaped? rest with
    | some (c, n) => (readBasic (rest.drop n)).cons c
    | none => .error .badEscape
  | c :: rest => if isPlain c then (readBasic rest).cons c else .error .forbiddenCharacter
termination_by cs => cs.length
decreasing_by all_goals grind

/-- The rest of a text in single quotes. -/
def readLiteral : List Char → Reading (List Char)
  | [] => .error .unclosedText
  | '\'' :: rest => .ok ([], rest)
  | c :: rest => if isPlain c then (readLiteral rest).cons c else .error .forbiddenCharacter

/-- Whether `c` is a blank within a line. -/
def isBlank (c : Char) : Bool :=
  c == ' ' || c == '\t'

/-- What follows a line end, if one stands here. -/
def lineEnd? : List Char → Option (List Char)
  | '\n' :: rest => some rest
  | '\r' :: '\n' :: rest => some rest
  | _ => none

/-- What follows the blanks and line ends that stand here. -/
def skipBlankLines : List Char → List Char
  | '\r' :: '\n' :: rest => skipBlankLines rest
  | c :: rest => if isBlank c || c == '\n' then skipBlankLines rest else c :: rest
  | [] => []

/-- What follows an escaped line end, the blanks before it and all blanks and line ends after it,
if there is one. -/
def escapedLineEnd? (cs : List Char) : Option (List Char) :=
  (lineEnd? (cs.dropWhile isBlank)).map skipBlankLines

/-- The closing quotes of a text in triple quotes, if they stand here. Up to two quotes before them
belong to the text. -/
def closing? (quote : Char) (cs : List Char) : Option (List Char × List Char) :=
  if cs.take 3 == [quote, quote, quote] then
    let more := ((cs.drop 3).take 2).takeWhile (· == quote)
    some (more, cs.drop (3 + more.length))
  else none

/-- The rest of a text in triple double quotes. Each unit of fuel takes a character. -/
def readMultiBasic : Nat → List Char → Reading (List Char)
  | 0, _ => .error .unclosedText
  | fuel + 1, cs =>
    match closing? '"' cs with
    | some done => .ok done
    | none =>
      match cs with
      | [] => .error .unclosedText
      | '\\' :: rest =>
        match escapedLineEnd? rest with
        | some rest => readMultiBasic fuel rest
        | none =>
          match escaped? rest with
          | some (c, n) => (readMultiBasic fuel (rest.drop n)).cons c
          | none => .error .badEscape
      | c :: rest =>
        match lineEnd? cs with
        | some rest => (readMultiBasic fuel rest).cons '\n'
        | none =>
          if isPlain c then (readMultiBasic fuel rest).cons c else .error .forbiddenCharacter

/-- The rest of a text in triple single quotes. Each unit of fuel takes a character. -/
def readMultiLiteral : Nat → List Char → Reading (List Char)
  | 0, _ => .error .unclosedText
  | fuel + 1, cs =>
    match closing? '\'' cs with
    | some done => .ok done
    | none =>
      match cs with
      | [] => .error .unclosedText
      | c :: rest =>
        match lineEnd? cs with
        | some rest => (readMultiLiteral fuel rest).cons '\n'
        | none =>
          if isPlain c then (readMultiLiteral fuel rest).cons c else .error .forbiddenCharacter

/-- The text without a line end at its front. -/
def skipLineEnd (cs : List Char) : List Char :=
  (lineEnd? cs).getD cs

/-- A text within a line, if one starts here. Keys are written like this, too. -/
def readLine? : List Char → Option (Reading (List Char))
  | '"' :: rest => some (readBasic rest)
  | '\'' :: rest => some (readLiteral rest)
  | _ => none

/-- A text, if one starts here. A line end right after triple quotes is not part of it. -/
def read? (cs : List Char) : Option (Reading (List Char)) :=
  match cs with
  | '"' :: '"' :: '"' :: rest => some (readMultiBasic (rest.length + 1) (skipLineEnd rest))
  | '\'' :: '\'' :: '\'' :: rest => some (readMultiLiteral (rest.length + 1) (skipLineEnd rest))
  | _ => readLine? cs

end Text

end Amend.Toml
