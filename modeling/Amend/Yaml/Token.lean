import Amend.Yaml.Scalar

/-!
# YAML tokens

The tokens of a document, with those that indentation implies: the starts and the ends of block
collections, and the keys of mappings that are followed by a colon on their line.
-/

set_option autoImplicit false

namespace Amend.Yaml

/-- The tokens of YAML text. -/
inductive Token
  | version (major minor : Nat)
  | tagHandle (handle expansion : String)
  | documentStart
  | documentEnd
  | blockSequenceStart
  | blockMappingStart
  | blockEnd
  | flowSequenceStart
  | flowSequenceEnd
  | flowMappingStart
  | flowMappingEnd
  | blockEntry
  | flowEntry
  | key
  | value
  | alias (name : String)
  | anchor (name : String)
  | tag (handle suffix : String)
  | scalar (style : ScalarStyle) (text : String)
  deriving DecidableEq, Repr

/-- A token that is a key if a colon follows it on its line. -/
structure Candidate where
  /-- Without a colon, nothing that may stand here starts with the token. -/
  required : Bool
  /-- The number of tokens before it. -/
  position : Nat
  index : Nat
  line : Nat
  column : Nat

/-- The state in which a text is cut into tokens. -/
structure Lexer where
  cursor : Cursor
  /-- The tokens so far, the latest first. -/
  tokens : List Token
  count : Nat
  /-- The column of the innermost block collection, -1 outside of all. -/
  indent : Int
  /-- The columns of the collections around it. -/
  indents : List Int
  /-- The candidates for keys, one for the block level and one for each flow collection, the
  innermost first. -/
  keys : List (Option Candidate)
  /-- Whether a key may start here. -/
  keyAllowed : Bool

namespace Lexer

/-- Before the first token. -/
def ofText (text : List Char) : Lexer where
  cursor := .ofText text
  tokens := []
  count := 0
  indent := -1
  indents := []
  keys := [none]
  keyAllowed := true

/-- Whether the lexer is inside a flow collection. -/
def inFlow (l : Lexer) : Bool :=
  l.keys.length > 1

/-- With a token more. -/
def push (l : Lexer) (t : Token) : Lexer :=
  { l with tokens := t :: l.tokens, count := l.count + 1 }

/-- With a token put before all but the first `position` tokens. -/
def insert (l : Lexer) (position : Nat) (t : Token) : Lexer :=
  let later := l.count - position
  { l with tokens := l.tokens.take later ++ t :: l.tokens.drop later, count := l.count + 1 }

def advance (l : Lexer) (n : Nat) : Lexer :=
  { l with cursor := l.cursor.advance n }

/-- Gives up the candidate of this level. -/
def dropKey (l : Lexer) : Except YamlError Lexer :=
  if l.keys.head?.join.any Candidate.required then .error .colonExpected
  else .ok { l with keys := none :: l.keys.tail }

/-- Takes the next token for a candidate, if a key may start here. -/
def saveKey (l : Lexer) : Except YamlError Lexer :=
  if l.keyAllowed then do
    let l ← l.dropKey
    let candidate : Candidate := {
      required := !l.inFlow && l.indent == (l.cursor.column : Int)
      position := l.count
      index := l.cursor.index
      line := l.cursor.line
      column := l.cursor.column }
    return { l with keys := some candidate :: l.keys.tail }
  else .ok l

/-- Gives up the candidates that no colon can make a key any more: keys stand on one line, and
within 1024 characters. -/
def dropStaleKeys (l : Lexer) : Except YamlError Lexer := do
  let keys ← l.keys.mapM fun key =>
    match key with
    | some k =>
      if k.line < l.cursor.line || k.index + 1024 < l.cursor.index then
        if k.required then .error YamlError.colonExpected else .ok none
      else .ok (some k)
    | none => .ok none
  return { l with keys }

/-- Opens a block collection at `column`, if that lies deeper. Its start stands before all but the
first `position` tokens. -/
def openBlock (l : Lexer) (column : Nat) (position : Nat) (start : Token) : Lexer :=
  if !l.inFlow && l.indent < (column : Int) then
    { l.insert position start with indent := column, indents := l.indent :: l.indents }
  else l

/-- Closes the block collections at columns beyond `column`. -/
def closeBlocks (l : Lexer) (column : Int) : Lexer :=
  if l.inFlow then l else go l.indents l
where
  go : List Int → Lexer → Lexer
    | outer :: more, l =>
      if column < l.indent then go more { l.push .blockEnd with indent := outer, indents := more }
      else l
    | [], l => l

/-- Passes blanks, comments and line ends. -/
def skipGap (l : Lexer) : Nat → Lexer
  | 0 => l
  | fuel + 1 =>
    let c := l.cursor
    let c := if c.index == 0 && c.next? = some '\ufeff' then c.advance 1 else c
    let c := c.skipWhile fun ch => ch == ' ' || (l.inFlow || !l.keyAllowed) && ch == '\t'
    let c := if c.next? = some '#' then c.skipWhile (!isBreak ·) else c
    if c.next?.any isBreak then
      skipGap { l with cursor := c.takeBreak.2, keyAllowed := l.keyAllowed || !l.inFlow } fuel
    else { l with cursor := c }

/-! ## Directives, anchors and tags -/

/-- The digits of a version number, at most nine. -/
def versionNumber (c : Cursor) : Except YamlError (Nat × Cursor) :=
  let (digits, c) := c.takeWhile Char.isDigit
  if digits.isEmpty || 9 < digits.length then .error .badDirective
  else .ok (digits.foldl (fun n d => 10 * n + (d.toNat - '0'.toNat)) 0, c)

/-- The characters of tags, besides escape sequences. In full tags, flow indicators of sequences
count too. -/
def isTagChar (full : Bool) (c : Char) : Bool :=
  isWordChar c || ";/?:@&=+$.!~*'()".toList.contains c || full && [',', '[', ']'].contains c

/-- A byte that is written as a percent sign and two hexadecimal digits. -/
def percentByte? (cs : List Char) : Option Nat :=
  match cs with
  | '%' :: a :: b :: _ => Scalar.hexValue? [a, b]
  | _ => none

/-- A character whose bytes are written with percent signs, and the length of that. -/
def percentChar? (cs : List Char) : Option (Char × Nat) := do
  let first ← percentByte? cs
  let (value, more) ←
    if first < 0x80 then some (first, 0)
    else if 0xC0 ≤ first && first < 0xE0 then some (first - 0xC0, 1)
    else if 0xE0 ≤ first && first < 0xF0 then some (first - 0xE0, 2)
    else if 0xF0 ≤ first && first < 0xF8 then some (first - 0xF0, 3)
    else none
  let value ← (List.range more).foldlM (fun value i => do
    let byte ← percentByte? (cs.drop (3 * (i + 1)))
    if 0x80 ≤ byte && byte < 0xC0 then some (64 * value + (byte - 0x80)) else none) value
  return ((Scalar.charOf? value).getD '\ufffd', 3 * (more + 1))

/-- The rest of a tag. Each unit of fuel takes one character. -/
def tagText (full : Bool) : Nat → List Char → Cursor → Except YamlError (List Char × Cursor)
  | 0, out, c => .ok (out.reverse, c)
  | fuel + 1, out, c =>
    match c.next? with
    | some '%' =>
      match percentChar? c.rest with
      | some (d, n) => tagText full fuel (d :: out) (c.advance n)
      | none => .error .badTag
    | some d =>
      if isTagChar full d then tagText full fuel (d :: out) (c.advance 1)
      else .ok (out.reverse, c)
    | none => .ok (out.reverse, c)

/-- A tag handle: an exclamation mark, and perhaps a name. The mark after the name may be missing
in a tag, but not in a directive. -/
def handle (inDirective : Bool) (c : Cursor) : Except YamlError (List Char × Cursor) :=
  if c.next? ≠ some '!' then .error .badTag
  else
    let (name, c) := (c.advance 1).takeWhile isWordChar
    if c.next? = some '!' then .ok ('!' :: (name ++ ['!']), c.advance 1)
    else if inDirective && !name.isEmpty then .error .badTag
    else .ok ('!' :: name, c)

/-- A directive. -/
def directive (l : Lexer) : Except YamlError Lexer := do
  let (name, c) := (l.cursor.advance 1).takeWhile isWordChar
  if name.isEmpty || !endsWord c.next? then
    throw .badDirective
  let c := if name == ['Y', 'A', 'M', 'L'] || name == ['T', 'A', 'G'] then c.skipWhile isBlank
    else c
  let (token, c) ←
    if name == ['Y', 'A', 'M', 'L'] then do
      let (major, c) ← versionNumber c
      if c.next? ≠ some '.' then
        throw .badDirective
      let (minor, c) ← versionNumber (c.advance 1)
      pure (Token.version major minor, c)
    else if name == ['T', 'A', 'G'] then do
      let (handle, c) ← handle true c
      if !c.next?.any isBlank then
        throw .badDirective
      let (expansion, c) ← tagText true c.rest.length [] (c.skipWhile isBlank)
      if expansion.isEmpty || !endsWord c.next? then
        throw .badDirective
      pure (Token.tagHandle (.ofList handle) (.ofList expansion), c)
    else throw .badDirective
  match c.skipToBreak? with
  | some c => return { l with cursor := c }.push token
  | none => throw .badDirective

/-- The name of an anchor or alias. -/
def anchorName (c : Cursor) : Except YamlError (String × Cursor) :=
  let (name, c) := (c.advance 1).takeWhile isWordChar
  if name.isEmpty || !(endsWord c.next? || c.next?.any ("?:,]\x7d%@`".toList.contains ·)) then
    .error .badAnchor
  else .ok (.ofList name, c)

/-- A tag. -/
def tag (l : Lexer) : Except YamlError Lexer := do
  let c := l.cursor
  let (handle, suffix, c) ←
    if c.peek? 1 = some '<' then do
      let (suffix, c) ← tagText true c.rest.length [] (c.advance 2)
      if suffix.isEmpty || c.next? ≠ some '>' then
        throw .badTag
      pure ([], suffix, c.advance 1)
    else do
      let (handle, c) ← handle false c
      if 1 < handle.length && handle.getLast? = some '!' then do
        let (suffix, c) ← tagText false c.rest.length [] c
        if suffix.isEmpty then
          throw .badTag
        pure (handle, suffix, c)
      else do
        let (more, c) ← tagText false c.rest.length [] c
        let suffix := handle.drop 1 ++ more
        pure (if suffix.isEmpty then ([], ['!'], c) else (['!'], suffix, c))
  if !(l.inFlow && c.next? = some ',') && !endsWord c.next? then
    throw .badTag
  return { l with cursor := c }.push (.tag (.ofList handle) (.ofList suffix))

/-! ## Tokens -/

/-- A token that ends all block collections. -/
def atTop (l : Lexer) : Except YamlError Lexer := do
  let l ← (l.closeBlocks (-1)).dropKey
  return { l with keyAllowed := false }

/-- A token that opens a flow collection. -/
def openFlow (l : Lexer) (t : Token) : Except YamlError Lexer := do
  let l ← l.saveKey
  return { l with keys := none :: l.keys, keyAllowed := true }.advance 1 |>.push t

/-- A token that closes a flow collection. -/
def closeFlow (l : Lexer) (t : Token) : Except YamlError Lexer := do
  let l ← l.dropKey
  let keys := if l.inFlow then l.keys.tail else l.keys
  return { l with keys, keyAllowed := false }.advance 1 |>.push t

/-- The dash before an entry. -/
def blockEntry (l : Lexer) : Except YamlError Lexer := do
  if !l.inFlow && !l.keyAllowed then
    throw .misplacedEntry
  let l ← (l.openBlock l.cursor.column l.count .blockSequenceStart).dropKey
  return { l with keyAllowed := true }.advance 1 |>.push .blockEntry

/-- The question mark before a key. -/
def explicitKey (l : Lexer) : Except YamlError Lexer := do
  if !l.inFlow && !l.keyAllowed then
    throw .misplacedKey
  let l ← (l.openBlock l.cursor.column l.count .blockMappingStart).dropKey
  return { l with keyAllowed := !l.inFlow }.advance 1 |>.push .key

/-- The colon before a value. It makes the candidate before it a key. -/
def valueMark (l : Lexer) : Except YamlError Lexer := do
  match l.keys.head?.join with
  | some k =>
    let l := (l.insert k.position .key).openBlock k.column k.position .blockMappingStart
    return { l with keys := none :: l.keys.tail, keyAllowed := false }.advance 1 |>.push .value
  | none =>
    if !l.inFlow && !l.keyAllowed then
      throw .misplacedValue
    let l := l.openBlock l.cursor.column l.count .blockMappingStart
    return { l with keyAllowed := !l.inFlow }.advance 1 |>.push .value

/-- An anchor or alias. -/
def reference (l : Lexer) (token : String → Token) : Except YamlError Lexer := do
  let l ← l.saveKey
  let (name, c) ← anchorName l.cursor
  return { l with cursor := c, keyAllowed := false }.push (token name)

/-- A scalar in quotes. -/
def quoted (l : Lexer) (double : Bool) : Except YamlError Lexer := do
  let l ← l.saveKey
  let c := l.cursor.advance 1
  let (text, c) ← Scalar.quoted double (c.rest.length + 1) [] c
  return { l with cursor := c, keyAllowed := false }.push (.scalar .quoted (.ofList text))

/-- A scalar that is a block. -/
def block (l : Lexer) (style : ScalarStyle) : Except YamlError Lexer := do
  let l ← l.dropKey
  let (text, c) ← Scalar.block (style == .literal) l.indent (l.cursor.advance 1)
  return { l with cursor := c, keyAllowed := true }.push (.scalar style (.ofList text))

/-- A plain scalar. -/
def plain (l : Lexer) : Except YamlError Lexer := do
  let l ← l.saveKey
  let (text, c, folded) ←
    Scalar.plain l.inFlow (l.indent + 1) (l.cursor.rest.length + 1) [] {} l.cursor
  return { l with cursor := c, keyAllowed := folded }.push (.scalar .plain (.ofList text))

/-- Whether a plain scalar starts with `c` before `next`. -/
def startsPlain (inFlow : Bool) (c : Char) (next : Option Char) : Bool :=
  if endsWord (some c) then false
  else if c == '-' then !next.any isBlank
  else if c == '?' || c == ':' then !inFlow && !endsWord next
  else !",[]\x7b\x7d#&*!|>'\"%@`".toList.contains c

/-- The next token, with those that it implies before it. At the end of the text there is none. -/
def step (l : Lexer) : Except YamlError (Option Lexer) := do
  let l ← (l.skipGap (l.cursor.rest.length + 1)).dropStaleKeys
  let l := l.closeBlocks l.cursor.column
  let c := l.cursor
  let next := c.peek? 1
  match c.next? with
  | none => return none
  | some ch =>
    if c.column == 0 && ch == '%' then some <$> (← l.atTop).directive
    else if c.atMark '-' then return some ((← l.atTop).advance 3 |>.push .documentStart)
    else if c.atMark '.' then return some ((← l.atTop).advance 3 |>.push .documentEnd)
    else if ch == '[' then some <$> l.openFlow .flowSequenceStart
    else if ch == '\x7b' then some <$> l.openFlow .flowMappingStart
    else if ch == ']' then some <$> l.closeFlow .flowSequenceEnd
    else if ch == '\x7d' then some <$> l.closeFlow .flowMappingEnd
    else if ch == ',' then do
      return some ({ ← l.dropKey with keyAllowed := true }.advance 1 |>.push .flowEntry)
    else if ch == '-' && endsWord next then some <$> l.blockEntry
    else if ch == '?' && (l.inFlow || endsWord next) then some <$> l.explicitKey
    else if ch == ':' && (l.inFlow || endsWord next) then some <$> l.valueMark
    else if ch == '*' then some <$> l.reference .alias
    else if ch == '&' then some <$> l.reference .anchor
    else if ch == '!' then do some <$> { ← l.saveKey with keyAllowed := false }.tag
    else if ch == '|' && !l.inFlow then some <$> l.block .literal
    else if ch == '>' && !l.inFlow then some <$> l.block .folded
    else if ch == '\'' then some <$> l.quoted false
    else if ch == '"' then some <$> l.quoted true
    else if startsPlain l.inFlow ch next then some <$> l.plain
    else throw .noToken

/-- All tokens from here on. Each unit of fuel takes one, and each takes a character. -/
def run : Nat → Lexer → Except YamlError (List Token)
  | 0, l => .ok l.tokens.reverse
  | fuel + 1, l => do
    match ← l.step with
    | some l => run fuel l
    | none =>
      return (← (l.closeBlocks (-1)).dropKey).tokens.reverse

end Lexer

/-- The tokens of a text. A byte order mark before it is passed over. -/
def Token.ofText? (text : List Char) : Except YamlError (List Token) :=
  let text := if text.head? = some '\ufeff' then text.tail else text
  if text.all isAllowed then (Lexer.ofText text).run (text.length + 1)
  else .error .forbiddenCharacter

end Amend.Yaml
