import Amend.Pattern.Flags
import Amend.Unicode.Folding
import Amend.Unicode.Query

/-!
# Sets of characters in patterns

What escapes, ranges and bracketed classes stand for, and how they are read. Readers take the
rest of the pattern and give back what they leave of it.
-/

set_option autoImplicit false

namespace Amend.Pattern

/-- The characters of `s` in either case, if case is ignored. -/
def foldCase (f : Flags) (s : Char → Bool) : Char → Bool :=
  if !f.ignoreCase then s
  else if f.unicode then fun c => (Unicode.Folding.classOf c.toNat).any fun n => s (.ofNat n)
  else fun c => s c || s (otherCase c)

/-- The characters outside of `s`. Without Unicode a set holds bytes, and as `s` holds ASCII alone,
its complement holds bytes that are no text. -/
def complement (f : Flags) (s : Char → Bool) : Except PatternError (Char → Bool) :=
  if f.unicode then .ok fun c => !s c else .error .notText

/-- Case and complement of a set as the flags ask for. -/
def foldAndNegate (f : Flags) (negated : Bool) (s : Char → Bool) :
    Except PatternError (Char → Bool) :=
  if negated then complement f (foldCase f s) else .ok (foldCase f s)

/-! ## Blanks -/

/-- Drops white space and comments; a comment runs from `#` to the end of the line. -/
def dropBlanks (comment : Bool) : List Char → List Char
  | [] => []
  | c :: cs =>
    if comment then dropBlanks (c != '\n') cs
    else if Unicode.isSpace c then dropBlanks false cs
    else if c = '#' then dropBlanks true cs
    else c :: cs

/-- Drops blanks and comments where the flags say that they do not count. -/
def skip (f : Flags) (cs : List Char) : List Char :=
  if f.ignoreBlanks then dropBlanks false cs else cs

/-- The character that counts next, without leaving the place. A comment is not looked past, only
into. -/
def peek (f : Flags) (cs : List Char) : Option Char :=
  if !f.ignoreBlanks then cs.head?
  else
    match cs.dropWhile Unicode.isSpace with
    | '#' :: rest => (rest.dropWhile Unicode.isSpace).head?
    | rest => rest.head?

/-! ## Escapes -/

/-- What an escape or a plain character stands for. -/
inductive Atom
  /-- A character; `byte` if it was written as the two digits of a byte. -/
  | literal (c : Char) (byte : Bool)
  | assertion (a : Assertion)
  /-- `\d`, `\s` and `\w`, and the complements of these. -/
  | shorthand (kind : Char) (negated : Bool)
  | property (p : Char → Bool) (negated : Bool)

/-- The characters with a meaning of their own in patterns. -/
def isMeta (c : Char) : Bool :=
  "\\.+*?()|[]\x7b\x7d^$#&-~".toList.contains c

/-- The value of a hexadecimal digit. -/
def hexDigit? (c : Char) : Option Nat :=
  if c.isDigit then some (c.toNat - '0'.toNat)
  else if 'a' ≤ c ∧ c ≤ 'f' then some (c.toNat - 'a'.toNat + 10)
  else if 'A' ≤ c ∧ c ≤ 'F' then some (c.toNat - 'A'.toNat + 10)
  else none

/-- The character with the given code point. -/
def charOf? (n : Nat) : Option Char :=
  if n.isValidChar then some (.ofNat n) else none

/-- Reads exactly `count` hexadecimal digits. -/
def readHexDigits (f : Flags) : Nat → Nat → List Char → Except PatternError (Nat × List Char)
  | 0, acc, cs => .ok (acc, cs)
  | _ + 1, _, [] => .error .badCodePoint
  | count + 1, acc, c :: cs =>
    match hexDigit? c with
    | some d => readHexDigits f count (acc * 16 + d) (skip f cs)
    | none => .error .badCodePoint

/-- Splits at the first `}`, dropping what does not count. -/
def untilBrace (f : Flags) (cs : List Char) : Option (List Char × List Char) :=
  let rec go : Nat → List Char → List Char → Option (List Char × List Char)
    | 0, _, _ => none
    | fuel + 1, acc, cs =>
      match skip f cs with
      | [] => none
      | '}' :: rest => some (acc.reverse, rest)
      | c :: rest => go fuel (c :: acc) rest
  go (cs.length + 1) [] cs

/-- Reads a code point: the digits of `\x`, `\u` or `\U`, of which there are `count`, or any
number of them between braces. -/
def readCodePoint (f : Flags) (count : Nat) (cs : List Char) :
    Except PatternError (Atom × List Char) :=
  match skip f cs with
  | '{' :: rest =>
    match untilBrace f rest with
    | none => .error .badCodePoint
    | some (digits, rest) =>
      match digits.mapM hexDigit? with
      | none | some [] => .error .badCodePoint
      | some ds =>
        match charOf? (ds.foldl (fun acc d => acc * 16 + d) 0) with
        | some c => .ok (.literal c false, skip f rest)
        | none => .error .badCodePoint
  | rest =>
    match readHexDigits f count 0 rest with
    | .error e => .error e
    | .ok (n, rest) =>
      match charOf? n with
      | some c => .ok (.literal c (count == 2), rest)
      | none => .error .badCodePoint

/-- Splits `cs` before and after the first occurrence of `sep`. -/
def splitAt? (sep : List Char) : List Char → Option (List Char × List Char)
  | [] => none
  | c :: cs =>
    if sep.isPrefixOf (c :: cs) then some ([], (c :: cs).drop sep.length)
    else (splitAt? sep cs).map fun (a, b) => (c :: a, b)

/-- The set that the text between the braces of `\p{…}` names, and whether it names the
complement. -/
def propertyNamed? (text : List Char) : Option ((Char → Bool) × Bool) :=
  match splitAt? ['!', '='] text with
  | some (name, value) => (Unicode.setValued? (.ofList name) (.ofList value)).map (·, true)
  | none =>
    match splitAt? [':'] text with
    | some (name, value) => (Unicode.setValued? (.ofList name) (.ofList value)).map (·, false)
    | none =>
      match splitAt? ['='] text with
      | some (name, value) => (Unicode.setValued? (.ofList name) (.ofList value)).map (·, false)
      | none => (Unicode.setNamed? (.ofList text)).map (·, false)

/-- Reads what follows `\p` or, negated, `\P`. -/
def readProperty (f : Flags) (negated : Bool) (cs : List Char) :
    Except PatternError (Atom × List Char) :=
  match skip f cs with
  | [] => .error .badEscape
  | '{' :: rest =>
    match untilBrace f rest with
    | none => .error .badEscape
    | some (text, rest) =>
      match propertyNamed? text with
      | some (p, no) => .ok (.property p (negated != no), rest)
      | none => .error .unknownProperty
  | c :: rest =>
    match Unicode.setNamed? (.singleton c) with
    | some p => .ok (.property p negated, skip f rest)
    | none => .error .unknownProperty

/-- Reads the rest of `\b{start}` and its kin after the brace; nothing if the brace begins a
repetition. -/
def readBoundary? (f : Flags) (cs : List Char) :
    Option (Except PatternError (Assertion × List Char)) :=
  let isNameChar := fun (c : Char) => c.isAlpha || c == '-'
  match skip f cs with
  | [] => some (.error .badEscape)
  | c :: rest =>
    if !isNameChar c then none
    else
      some <|
        match untilBrace f (c :: rest) with
        | none => .error .badEscape
        | some (name, rest) =>
          match String.ofList name with
          | "start" => .ok (.wordStart f.alphabet, rest)
          | "end" => .ok (.wordEnd f.alphabet, rest)
          | "start-half" => .ok (.wordStartHalf f.alphabet, rest)
          | "end-half" => .ok (.wordEndHalf f.alphabet, rest)
          | _ => .error .badEscape

/-- Reads an escape after its backslash. -/
def readEscape (f : Flags) : List Char → Except PatternError (Atom × List Char)
  | [] => .error .badEscape
  | c :: rest =>
    let assertion (a : Assertion) : Except PatternError (Atom × List Char) :=
      .ok (.assertion a, rest)
    let special (c : Char) : Except PatternError (Atom × List Char) := .ok (.literal c false, rest)
    if c.isDigit then .error .backReference
    else if isMeta c then special c
    else
      match c with
      | 'x' => readCodePoint f 2 rest
      | 'u' => readCodePoint f 4 rest
      | 'U' => readCodePoint f 8 rest
      | 'p' => readProperty f false rest
      | 'P' => readProperty f true rest
      | 'd' | 's' | 'w' => .ok (.shorthand c false, rest)
      | 'D' | 'S' | 'W' => .ok (.shorthand c.toLower true, rest)
      | 'a' => special '\x07'
      | 'f' => special '\x0c'
      | 't' => special '\t'
      | 'n' => special '\n'
      | 'r' => special '\r'
      | 'v' => special '\x0b'
      | 'A' => assertion .textStart
      | 'z' => assertion .textEnd
      | 'B' => assertion (.notWordBoundary f.alphabet)
      | '<' => assertion (.wordStart f.alphabet)
      | '>' => assertion (.wordEnd f.alphabet)
      | 'b' =>
        match rest with
        | '{' :: inner =>
          match readBoundary? f inner with
          | some (.ok (a, rest)) => .ok (.assertion a, rest)
          | some (.error e) => .error e
          | none => assertion (.wordBoundary f.alphabet)
        | _ => assertion (.wordBoundary f.alphabet)
      | _ => if c.toNat < 128 && !c.isAlphanum then special c else .error .badEscape

/-! ## Sets -/

/-- The set of `\d`, `\s` or `\w`, or its complement. -/
def shorthandSet (f : Flags) (kind : Char) (negated : Bool) :
    Except PatternError (Char → Bool) :=
  let s : Char → Bool :=
    match kind, f.unicode with
    | 'd', true => Unicode.isDigit
    | 's', true => Unicode.isSpace
    | 'd', false => Char.isDigit
    | 's', false => Unicode.isAsciiSpace
    | _, true => Unicode.isWord
    | _, false => Unicode.isAsciiWord
  if negated then complement f s else .ok s

/-- The set that a property names, or its complement. -/
def propertySet (f : Flags) (p : Char → Bool) (negated : Bool) :
    Except PatternError (Char → Bool) :=
  if f.unicode then foldAndNegate f negated p else .error .unicodeOff

/-- A character of a pattern outside of classes. A byte beyond ASCII is no text of its own. -/
def literalChar (f : Flags) (c : Char) (byte : Bool) : Except PatternError Char :=
  if !f.unicode && byte && c.toNat ≥ 128 then .error .notText else .ok c

/-- A character of a class. Without Unicode, classes hold bytes, so the character has to be
ASCII. -/
def classChar (f : Flags) (c : Char) (byte : Bool) : Except PatternError Char :=
  if f.unicode || c.toNat < 128 then .ok c
  else if byte then .error .notText
  else .error .unicodeOff

/-- The set of the class that `[:name:]` names. -/
def posixClass? : String → Option (Char → Bool)
  | "alnum" => some Char.isAlphanum
  | "alpha" => some Char.isAlpha
  | "ascii" => some fun c => c.toNat < 128
  | "blank" => some fun c => c == '\t' || c == ' '
  | "cntrl" => some fun c => c.toNat < 32 || c.toNat == 127
  | "digit" => some Char.isDigit
  | "graph" => some fun c => 33 ≤ c.toNat && c.toNat ≤ 126
  | "lower" => some Char.isLower
  | "print" => some fun c => 32 ≤ c.toNat && c.toNat ≤ 126
  | "punct" => some fun c => 33 ≤ c.toNat && c.toNat ≤ 126 && !c.isAlphanum
  | "space" => some Unicode.isAsciiSpace
  | "upper" => some Char.isUpper
  | "word" => some Unicode.isAsciiWord
  | "xdigit" => some fun c => (hexDigit? c).isSome
  | _ => none

/-- Reads `[:name:]` after its first bracket: the set, whether it is negated, and the rest. -/
def readPosix? : List Char → Option ((Char → Bool) × Bool × List Char)
  | ':' :: cs =>
    let (negated, cs) :=
      match cs with
      | '^' :: rest => (true, rest)
      | _ => (false, cs)
    let name := cs.takeWhile (· != ':')
    match cs.dropWhile (· != ':') with
    | ':' :: ']' :: rest => (posixClass? (.ofList name)).map (·, negated, rest)
    | _ => none
  | _ => none

/-! ## Room for sets

A program reads bytes, so that a set of characters takes as many instructions as there are ways for
their bytes to go on. The sets of the tables are large: for these there are bounds that hold of each
of them.
-/

/-- The room for `\d`, `\s` or `\w`, or the complement of one of them. -/
def shorthandWeight (f : Flags) : Nat :=
  if f.unicode then 550 else 2

/-- The room for a Unicode property. -/
def propertyWeight : Nat := 400

/-- The room that a complement takes beyond its set, for the characters outside of ASCII. -/
def complementWeight : Nat := 12

/-! ## Bracketed classes -/

/-- A part of a class: its set, how deep brackets nest in it, and how much room its program
takes. -/
structure ClassPart where
  set : Char → Bool
  depth : Nat
  weight : Nat

namespace ClassPart

def single (c : Char) : ClassPart :=
  ⟨(· == c), 0, c.utf8Size⟩

def range (a b : Char) : ClassPart :=
  ⟨fun c => a ≤ c && c ≤ b, 0, 2 * b.utf8Size⟩

/-- The union of parts that stand side by side. -/
def union : List ClassPart → ClassPart
  | [] => ⟨fun _ => false, 0, 1⟩
  | [p] => p
  | ps =>
    ⟨fun c => ps.any fun p => p.set c, (ps.foldl (fun d p => max d p.depth) 0) + 1,
      ps.foldl (fun w p => w + p.weight) 0⟩

end ClassPart

/-- The operations between classes. -/
inductive ClassOp
  | intersection | difference | symmetricDifference

def ClassOp.apply (f : Flags) (op : ClassOp) (l r : ClassPart) : ClassPart :=
  let a := foldCase f l.set
  let b := foldCase f r.set
  let s : Char → Bool :=
    match op with
    | intersection => fun c => a c && b c
    | difference => fun c => a c && !b c
    | symmetricDifference => fun c => a c != b c
  ⟨s, max l.depth r.depth + 1, l.weight + r.weight⟩

/-- What is left open while a class is read. -/
inductive ClassFrame
  /-- A bracket, with the parts before it. -/
  | bracket (before : List ClassPart) (negated : Bool)
  /-- An operation that waits for its right side. -/
  | operation (op : ClassOp) (left : ClassPart)

/-- Completes the operation on top of the frames, if there is one. -/
def closeOperation (f : Flags) (frames : List ClassFrame) (right : ClassPart) :
    List ClassFrame × ClassPart :=
  match frames with
  | .operation op left :: rest => (rest, op.apply f left right)
  | _ => (frames, right)

/-- Reads hyphens that stand for themselves at the beginning of a class. -/
def readHyphens (f : Flags) : Nat → List ClassPart → List Char → List ClassPart × List Char
  | 0, parts, cs => (parts, cs)
  | fuel + 1, parts, cs =>
    match cs with
    | '-' :: rest => readHyphens f fuel (.single '-' :: parts) (skip f rest)
    | _ => (parts, cs)

/-- Reads the beginning of a class after its bracket: whether it is negated, and the hyphens and
the bracket that stand for themselves there. -/
def openClass (f : Flags) (cs : List Char) : Bool × List ClassPart × List Char :=
  let (negated, cs) :=
    match skip f cs with
    | '^' :: rest => (true, skip f rest)
    | cs => (false, cs)
  match readHyphens f (cs.length + 1) [] cs with
  | ([], ']' :: rest) => (negated, [.single ']'], skip f rest)
  | (parts, rest) => (negated, parts, rest)

/-- Reads one character or escape of a class. -/
def readClassAtom (f : Flags) : List Char → Except PatternError (Atom × List Char)
  | [] => .error .classUnclosed
  | '\\' :: rest => readEscape f rest
  | c :: rest => .ok (.literal c false, rest)

/-- The part that a single atom of a class stands for. -/
def Atom.classPart (f : Flags) : Atom → Except PatternError ClassPart
  | literal c byte => (classChar f c byte).map .single
  | shorthand kind negated =>
    (shorthandSet f kind negated).map (⟨·, 0, shorthandWeight f⟩)
  | property p negated => (propertySet f p negated).map (⟨·, 0, propertyWeight⟩)
  | assertion _ => .error .badClassItem

/-- Reads a character, an escape or a range of a class. -/
def readClassItem (f : Flags) (cs : List Char) : Except PatternError (ClassPart × List Char) :=
  match readClassAtom f cs with
  | .error e => .error e
  | .ok (first, rest) =>
    let rest := skip f rest
    let alone : Except PatternError (ClassPart × List Char) :=
      match first.classPart f with
      | .ok part => .ok (part, rest)
      | .error e => .error e
    match rest with
    | [] => .error .classUnclosed
    | '-' :: after =>
      if peek f after == some ']' || peek f after == some '-' then alone
      else
        match readClassAtom f (skip f after) with
        | .error e => .error e
        | .ok (.literal b byteB, rest) =>
          match first with
          | .literal a byteA =>
            match classChar f a byteA, classChar f b byteB with
            | .ok a, .ok b => if a ≤ b then .ok (.range a b, rest) else .error .badClassRange
            | .error e, _ => .error e
            | _, .error e => .error e
          | _ => .error .badClassRange
        | .ok _ => .error .badClassRange
    | _ => alone

/-- Reads a class; `frames` are open, and `parts` were read of the innermost bracket, the latest
first. -/
def readClassFrom (f : Flags) :
    Nat → List ClassFrame → List ClassPart → List Char → Except PatternError (ClassPart × List Char)
  | 0, _, _, _ => .error .classUnclosed
  | fuel + 1, frames, parts, cs =>
    let operate (op : ClassOp) (rest : List Char) :=
      let (frames, left) := closeOperation f frames (.union parts)
      readClassFrom f fuel (.operation op left :: frames) [] rest
    match skip f cs with
    | [] => .error .classUnclosed
    | '[' :: rest =>
      match readPosix? rest with
      | some (s, negated, rest) =>
        match foldAndNegate f negated s with
        | .ok s =>
          let part := ⟨s, 0, 2 + if negated then complementWeight else 0⟩
          readClassFrom f fuel frames (part :: parts) rest
        | .error e => .error e
      | none =>
        let (negated, first, rest) := openClass f rest
        readClassFrom f fuel (.bracket parts negated :: frames) first rest
    | ']' :: rest =>
      let (frames, part) := closeOperation f frames (.union parts)
      match frames with
      | .bracket before negated :: outer =>
        match foldAndNegate f negated part.set with
        | .error e => .error e
        | .ok s =>
          let part := ⟨s, part.depth + 1, part.weight + if negated then complementWeight else 0⟩
          if outer.isEmpty then .ok (part, rest)
          else readClassFrom f fuel outer (part :: before) rest
      | _ => .error .classUnclosed
    | '&' :: '&' :: rest => operate .intersection rest
    | '-' :: '-' :: rest => operate .difference rest
    | '~' :: '~' :: rest => operate .symmetricDifference rest
    | cs =>
      match readClassItem f cs with
      | .ok (part, rest) => readClassFrom f fuel frames (part :: parts) rest
      | .error e => .error e

/-- Reads a class after its opening bracket. -/
def readClass (f : Flags) (cs : List Char) : Except PatternError (ClassPart × List Char) :=
  let (negated, first, rest) := openClass f cs
  readClassFrom f (cs.length + 1) [.bracket [] negated] first rest

end Amend.Pattern
