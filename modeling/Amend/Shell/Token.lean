/-!
# Words and tokens of the shell

A text is cut into words, operators and redirections. A word keeps what is to be put in for
variables and commands, and which of its parts were quoted.
-/

set_option autoImplicit false

namespace Amend.Shell

/-- A part of a word. -/
inductive WordPart
  | text (cs : List Char)
  /-- Text that was quoted, and so stands for nothing but itself. -/
  | quoted (cs : List Char)
  /-- The value of a variable. Outside of quotes it is cut at blanks. -/
  | variable (name : String) (quoted : Bool)
  /-- What a command prints, without the line ends at its end. Outside of quotes it is cut at
  blanks. -/
  | output (command : String) (quoted : Bool)
  deriving DecidableEq, Repr

abbrev Word := List WordPart

/-- The tokens of a command line. -/
inductive Token
  | word (w : Word)
  | operator (name : String)
  | redirect (fd : Nat) (name : String)
  /-- A quote that is not closed: nothing can follow. -/
  | openQuote
  deriving DecidableEq, Repr

def isNameStart (c : Char) : Bool := c.isAlpha || c == '_'

def isNameChar (c : Char) : Bool := c.isAlphanum || c == '_'

/-- The text up to the parenthesis that closes `depth` open ones, and what follows. -/
def closing : Nat → List Char → Option (List Char × List Char)
  | _, [] => none
  | depth, '(' :: rest => (closing (depth + 1) rest).map fun (cs, rest) => ('(' :: cs, rest)
  | 0, ')' :: rest => some ([], rest)
  | depth + 1, ')' :: rest => (closing depth rest).map fun (cs, rest) => (')' :: cs, rest)
  | depth, c :: rest => (closing depth rest).map fun (cs, rest) => (c :: cs, rest)

/-- The text up to a character, and what follows that. -/
def upTo (stop : Char) (cs : List Char) : Option (List Char × List Char) :=
  match cs.dropWhile (· != stop) with
  | _ :: rest => some (cs.takeWhile (· != stop), rest)
  | [] => none

/-- What a dollar sign stands for with what follows it, and the rest; nothing if it stands for
itself. -/
def reference? (quoted : Bool) : List Char → Option (WordPart × List Char)
  | '(' :: rest =>
    (closing 0 rest).map fun (cs, rest) => (.output (.ofList cs) quoted, rest)
  | '\x7b' :: rest =>
    (upTo '\x7d' rest).map fun (name, rest) => (.variable (.ofList name) quoted, rest)
  | c :: rest =>
    if isNameStart c then
      some (.variable (.ofList (c :: rest.takeWhile isNameChar)) quoted,
        rest.dropWhile isNameChar)
    else if c.isDigit || "?$#!@*-".toList.contains c then
      some (.variable (.singleton c) quoted, rest)
    else none
  | [] => none

/-- A word with one unquoted character more. -/
def addText (w : Word) (c : Char) : Word :=
  match w.getLast? with
  | some (.text cs) => w.dropLast ++ [.text (cs ++ [c])]
  | _ => w ++ [.text [c]]

/-- A word with one quoted character more. -/
def addQuoted (w : Word) (c : Char) : Word :=
  match w.getLast? with
  | some (.quoted cs) => w.dropLast ++ [.quoted (cs ++ [c])]
  | _ => w ++ [.quoted [c]]

/-- The rest of a text in double quotes, after the word that it continues. -/
def doubleQuoted : Nat → Word → List Char → Option (Word × List Char)
  | 0, _, _ => none
  | fuel + 1, w, cs =>
    match cs with
    | [] => none
    | '"' :: rest => some (w, rest)
    | '\\' :: c :: rest =>
      if c == '\n' then doubleQuoted fuel w rest
      else if c == '"' || c == '\\' || c == '$' || c == '\x60' then
        doubleQuoted fuel (addQuoted w c) rest
      else doubleQuoted fuel (addQuoted (addQuoted w '\\') c) rest
    | '\x60' :: rest =>
      match upTo '\x60' rest with
      | some (command, rest) => doubleQuoted fuel (w ++ [.output (.ofList command) true]) rest
      | none => none
    | '$' :: rest =>
      match reference? true rest with
      | some (part, rest) => doubleQuoted fuel (w ++ [part]) rest
      | none => doubleQuoted fuel (addQuoted w '$') rest
    | c :: rest => doubleQuoted fuel (addQuoted w c) rest

/-- Whether `c` ends a word. -/
def endsWord (c : Char) : Bool :=
  " \t\n;&|<>()".toList.contains c

/-- A word that goes on here. Quotes make a part even if nothing stands between them. -/
def readWord : Nat → Word → List Char → Option (Word × List Char)
  | 0, _, _ => none
  | fuel + 1, w, cs =>
    match cs with
    | [] => some (w, [])
    | '\'' :: rest =>
      match upTo '\'' rest with
      | some (text, rest) => readWord fuel (w ++ [.quoted text]) rest
      | none => none
    | '"' :: rest =>
      match doubleQuoted (rest.length + 1) (w ++ [.quoted []]) rest with
      | some (w, rest) => readWord fuel w rest
      | none => none
    | '\x60' :: rest =>
      match upTo '\x60' rest with
      | some (command, rest) => readWord fuel (w ++ [.output (.ofList command) false]) rest
      | none => none
    | '\\' :: c :: rest =>
      if c == '\n' then readWord fuel w rest else readWord fuel (addQuoted w c) rest
    | '$' :: rest =>
      match reference? false rest with
      | some (part, rest) => readWord fuel (w ++ [part]) rest
      | none => readWord fuel (addText w '$') rest
    | c :: rest => if endsWord c then some (w, cs) else readWord fuel (addText w c) rest

/-- The operators, longer ones first. -/
def operators : List String := ["&&", "||", ";;", ";", "|", "&", "(", ")", "\n"]

/-- The redirections, longer ones first. -/
def redirections : List String := [">>", ">&", "<", ">"]

/-- The tokens of a text. -/
def tokens : Nat → List Char → List Token
  | 0, _ => []
  | fuel + 1, cs =>
    let cs := cs.dropWhile fun c => c == ' ' || c == '\t'
    let redirect (fd : Option Nat) (cs : List Char) : Option (Token × List Char) :=
      (redirections.find? fun r => r.toList.isPrefixOf cs).map fun r =>
        (.redirect (fd.getD (if r == "<" then 0 else 1)) r, cs.drop r.length)
    let numbered : Option (Token × List Char) :=
      match cs with
      | d :: rest => if d.isDigit then redirect (some (d.toNat - '0'.toNat)) rest else none
      | [] => none
    match cs with
    | [] => []
    | '#' :: rest => tokens fuel (rest.dropWhile (· != '\n'))
    | '\\' :: '\n' :: rest => tokens fuel rest
    | cs =>
      match numbered.or (redirect none cs) with
      | some (t, rest) => t :: tokens fuel rest
      | none =>
        match operators.find? fun o => o.toList.isPrefixOf cs with
        | some o => .operator o :: tokens fuel (cs.drop o.length)
        | none =>
          match readWord (cs.length + 1) [] cs with
          | some (w, rest) => .word w :: tokens fuel rest
          | none => [.openQuote]

/-- The word as it is written, if nothing in it is quoted or to be put in. -/
def literal? : Word → Option (List Char)
  | [.text cs] => some cs
  | _ => none

/-- The words that mean something of their own where a command can start. -/
def reserved : List String :=
  ["!", "\x7b", "\x7d", "if", "then", "elif", "else", "fi", "while", "until", "for", "do", "done"]

/-- The reserved word that a token is. -/
def Token.keyword? : Token → Option String
  | .word w =>
    match literal? w with
    | some cs => if reserved.contains (.ofList cs) then some (.ofList cs) else none
    | none => none
  | _ => none

end Amend.Shell
