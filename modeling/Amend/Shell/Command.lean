import Amend.Shell.Token

/-!
# Commands of the shell

Simple commands with assignments and redirections, put together by pipes, conditions, sequences
and loops. A text is read line by line, so what is wrong with a line does not concern those before
it.
-/

set_option autoImplicit false

namespace Amend.Shell

/-- A redirection of the input or of one of the outputs. -/
inductive Redirection
  | input (file : Word)
  | output (fd : Nat) (file : Word) (append : Bool)
  | duplicate (fd source : Nat)
  deriving DecidableEq, Repr

/-- A program with its arguments, or assignments to variables. -/
structure SimpleCommand where
  assignments : List (String × Word) := []
  words : List Word := []
  redirections : List Redirection := []
  deriving DecidableEq, Repr

/-- The commands of the shell. -/
inductive Command
  | nothing
  | simple (c : SimpleCommand)
  | negated (c : Command)
  | pipe (first second : Command)
  | both (first second : Command)
  | either (first second : Command)
  | sequence (first second : Command)
  /-- A command that is not waited for. -/
  | background (c : Command)
  | subshell (c : Command)
  | choice (condition yes no : Command)
  | loop (condition body : Command)
  | forEach (name : String) (words : List Word) (body : Command)
  | redirected (c : Command) (redirections : List Redirection)
  deriving DecidableEq, Repr

/-- What is wrong with a text. -/
inductive SyntaxFault
  | openQuote
  | badDescriptor
  /-- Something stands where it must not, perhaps in the place of something else. -/
  | unexpected (found : String) (expected : Option String)
  deriving DecidableEq, Repr

/-- The wording of a fault. -/
def SyntaxFault.message : SyntaxFault → String
  | openQuote => "Unterminated quoted string"
  | badDescriptor => "Bad fd number"
  | unexpected found none => s!"{found} unexpected"
  | unexpected found (some expected) => s!"{found} unexpected (expecting \"" ++ expected ++ "\")"

/-- A token in a complaint. -/
def Token.label (t : Token) : String :=
  match t.keyword?, t with
  | some keyword, _ => "\"" ++ keyword ++ "\""
  | none, .operator "\n" => "newline"
  | none, .operator name => "\"" ++ name ++ "\""
  | none, .redirect _ _ => "redirection"
  | none, _ => "word"

/-- The fault that the next token is. -/
def faultAt (expected : Option String) : List Token → SyntaxFault
  | [] => .unexpected "end of file" expected
  | .openQuote :: _ => .openQuote
  | t :: _ => .unexpected t.label expected

/-- A command and what follows it. -/
abbrev Reading := Except SyntaxFault (Command × List Token)

/-- The name that a word assigns to, and the value, if it is an assignment. -/
def assignment? : Word → Option (String × Word)
  | .text cs :: rest =>
    let name := cs.takeWhile isNameChar
    match cs.dropWhile isNameChar with
    | '=' :: value =>
      if name.head?.any isNameStart then some (.ofList name, .text value :: rest) else none
    | _ => none
  | _ => none

/-- A redirection to or from what a word names. -/
def Redirection.ofWord (fd : Nat) (name : String) (w : Word) : Except SyntaxFault Redirection :=
  if name == "<" then .ok (.input w)
  else if name == ">&" then
    match literal? w with
    | some [d] =>
      if d.isDigit then .ok (.duplicate fd (d.toNat - '0'.toNat)) else .error .badDescriptor
    | _ => .error .badDescriptor
  else .ok (.output fd w (name == ">>"))

/-- The tokens of a simple command, up to an operator. -/
def simpleCommand :
    List Token → SimpleCommand → Except SyntaxFault (SimpleCommand × List Token)
  | .redirect fd name :: .word file :: rest, c => do
    let r ← Redirection.ofWord fd name file
    simpleCommand rest { c with redirections := c.redirections ++ [r] }
  | .redirect .. :: rest, _ => .error (faultAt none rest)
  | .word w :: rest, c =>
    match (if c.words.isEmpty then assignment? w else none) with
    | some a => simpleCommand rest { c with assignments := c.assignments ++ [a] }
    | none => simpleCommand rest { c with words := c.words ++ [w] }
  | rest, c => .ok (c, rest)

/-- Redirections after a command in brackets. -/
def redirectionsAfter (c : Command) (ts : List Token) : Reading := do
  let (s, rest) ← simpleCommand ts {}
  if !s.words.isEmpty || !s.assignments.isEmpty then throw (faultAt none ts)
  return (if s.redirections.isEmpty then c else .redirected c s.redirections, rest)

/-- The tokens without the line ends in front of them. -/
def skipLines (ts : List Token) : List Token :=
  ts.dropWhile (· == .operator "\n")

/-- Whether a token ends commands that stand inside another one. -/
def Token.isCloser (t : Token) : Bool :=
  t == .operator ")" ||
    t.keyword?.any ["then", "elif", "else", "fi", "do", "done", "\x7d"].contains

/-- What follows a reserved word, which must be there. -/
def expect (keyword : String) : List Token → Except SyntaxFault (List Token)
  | [] => .error (faultAt (some keyword) [])
  | t :: rest =>
    if t.keyword? = some keyword then .ok rest else .error (faultAt (some keyword) (t :: rest))

mutual

/-- Commands one after the other, up to what ends them. Each unit of fuel takes a step down or
along. -/
def sequence : Nat → List Token → Reading
  | 0, ts => .error (faultAt none ts)
  | fuel + 1, ts =>
    match skipLines ts with
    | [] => .ok (.nothing, [])
    | t :: rest =>
      if t.isCloser then .ok (.nothing, t :: rest)
      else
        match conditions fuel (t :: rest) with
        | .ok (c, .operator ";" :: rest) | .ok (c, .operator "\n" :: rest) =>
          (sequence fuel rest).map fun (d, rest) => (.sequence c d, rest)
        | .ok (c, .operator "&" :: rest) =>
          (sequence fuel rest).map fun (d, rest) => (.sequence (.background c) d, rest)
        | result => result

/-- Commands inside another one: at least one. -/
def inner : Nat → List Token → Reading
  | 0, ts => .error (faultAt none ts)
  | fuel + 1, ts =>
    match sequence fuel ts with
    | .ok (.nothing, []) => .ok (.nothing, [])
    | .ok (.nothing, rest) => .error (faultAt none rest)
    | result => result

/-- Commands up to a reserved word, and what follows that. -/
def innerUpTo (keyword : String) : Nat → List Token → Reading
  | 0, ts => .error (faultAt none ts)
  | fuel + 1, ts =>
    match inner fuel ts with
    | .ok (c, rest) => (expect keyword rest).map fun rest => (c, rest)
    | .error e => .error e

/-- Pipelines with conditions between them. -/
def conditions : Nat → List Token → Reading
  | 0, ts => .error (faultAt none ts)
  | fuel + 1, ts =>
    match pipeline fuel ts with
    | .ok (c, rest) => moreConditions fuel c rest
    | .error e => .error e

/-- The conditions after a command. -/
def moreConditions : Nat → Command → List Token → Reading
  | 0, _, ts => .error (faultAt none ts)
  | fuel + 1, c, ts =>
    match ts with
    | .operator "&&" :: rest =>
      match pipeline fuel (skipLines rest) with
      | .ok (d, rest) => moreConditions fuel (.both c d) rest
      | .error e => .error e
    | .operator "||" :: rest =>
      match pipeline fuel (skipLines rest) with
      | .ok (d, rest) => moreConditions fuel (.either c d) rest
      | .error e => .error e
    | ts => .ok (c, ts)

/-- Commands with pipes between them, perhaps negated. -/
def pipeline : Nat → List Token → Reading
  | 0, ts => .error (faultAt none ts)
  | fuel + 1, ts =>
    if ts.head?.bind Token.keyword? = some "!" then
      (pipeline fuel ts.tail).map fun (c, rest) => (.negated c, rest)
    else
      match single fuel ts with
      | .ok (c, .operator "|" :: rest) =>
        (pipeline fuel (skipLines rest)).map fun (d, rest) => (.pipe c d, rest)
      | result => result

/-- What follows a condition: the commands for it, and those for the other case. -/
def branches : Nat → Command → List Token → Reading
  | 0, _, ts => .error (faultAt none ts)
  | fuel + 1, condition, ts =>
    match inner fuel ts with
    | .error e => .error e
    | .ok (yes, rest) =>
      match rest.head?.bind Token.keyword? with
      | some "elif" =>
        match innerUpTo "then" fuel rest.tail with
        | .ok (other, rest) =>
          (branches fuel other rest).map fun (no, rest) => (.choice condition yes no, rest)
        | .error e => .error e
      | some "else" =>
        (innerUpTo "fi" fuel rest.tail).map fun (no, rest) => (.choice condition yes no, rest)
      | _ => (expect "fi" rest).map fun rest => (.choice condition yes .nothing, rest)

/-- The commands that a loop repeats. -/
def body : Nat → List Token → Reading
  | 0, ts => .error (faultAt none ts)
  | fuel + 1, ts =>
    match expect "do" (skipLines ts) with
    | .ok rest => innerUpTo "done" fuel rest
    | .error e => .error e

/-- A simple command, or commands in brackets. -/
def single : Nat → List Token → Reading
  | 0, ts => .error (faultAt none ts)
  | fuel + 1, ts =>
    match ts with
    | .operator "(" :: rest =>
      match inner fuel rest with
      | .ok (c, .operator ")" :: rest) => redirectionsAfter (.subshell c) rest
      | .ok (_, rest) => .error (faultAt (some ")") rest)
      | .error e => .error e
    | .operator _ :: _ | .openQuote :: _ | [] => .error (faultAt none ts)
    | t :: rest =>
      match t.keyword? with
      | none => (simpleCommand ts {}).map fun (c, rest) => (.simple c, rest)
      | some "\x7b" =>
        match innerUpTo "\x7d" fuel rest with
        | .ok (c, rest) => redirectionsAfter c rest
        | .error e => .error e
      | some "if" =>
        match innerUpTo "then" fuel rest with
        | .ok (condition, rest) =>
          match branches fuel condition rest with
          | .ok (c, rest) => redirectionsAfter c rest
          | .error e => .error e
        | .error e => .error e
      | some "while" | some "until" =>
        match inner fuel rest with
        | .ok (condition, rest) =>
          match body fuel rest with
          | .ok (repeated, rest) =>
            redirectionsAfter
              (.loop (if t.keyword? = some "while" then condition else .negated condition)
                repeated) rest
          | .error e => .error e
        | .error e => .error e
      | some "for" =>
        match rest with
        | .word [.text name] :: .word [.text ['i', 'n']] :: rest =>
          match simpleCommand rest {} with
          | .ok (items, .operator ";" :: rest) | .ok (items, .operator "\n" :: rest) =>
            match body fuel rest with
            | .ok (repeated, rest) =>
              redirectionsAfter (.forEach (.ofList name) items.words repeated) rest
            | .error e => .error e
          | .ok (_, rest) => .error (faultAt (some "do") rest)
          | .error e => .error e
        | ts => .error (faultAt none ts)
      | some _ => .error (faultAt none ts)

end

/-- The commands of a line, and what follows the line. -/
def line : Nat → List Token → Reading
  | 0, ts => .error (faultAt none ts)
  | fuel + 1, ts =>
    let goOn (c : Command) (rest : List Token) : Reading :=
      match rest with
      | [] | .operator "\n" :: _ => .ok (c, rest)
      | rest => (line fuel rest).map fun (d, rest) => (.sequence c d, rest)
    match conditions (8 * ts.length + 8) ts with
    | .ok (c, .operator ";" :: rest) => goOn c rest
    | .ok (c, .operator "&" :: rest) => goOn (.background c) rest
    | .ok (c, .operator "\n" :: rest) => .ok (c, .operator "\n" :: rest)
    | .ok (c, []) => .ok (c, [])
    | .ok (_, rest) => .error (faultAt none rest)
    | .error e => .error e

/-- The lines of a text up to one with a fault. -/
def lines : Nat → List Token → List Command × Option SyntaxFault
  | 0, _ => ([], none)
  | fuel + 1, ts =>
    match skipLines ts with
    | [] => ([], none)
    | ts =>
      match line (ts.length + 1) ts with
      | .ok (c, rest) =>
        let (cs, fault) := lines fuel rest
        (c :: cs, fault)
      | .error e => ([], some e)

/-- The commands that a text writes, up to a line with a fault. -/
def Command.ofText (text : String) : List Command × Option SyntaxFault :=
  let ts := tokens (text.length + 1) text.toList
  lines (ts.length + 1) ts

end Amend.Shell
