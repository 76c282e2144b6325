import Amend.Toml.Number

/-!
# TOML documents

A document is a list of statements: a key with its value, or the header of a table. The statements
are put together into a table, in which no key is given twice.
-/

set_option autoImplicit false

namespace Amend.Toml

/-- The values that keys can have. Inline tables keep track of which of them dotted keys made. -/
inductive Value
  | text (s : String)
  | bool (b : Bool)
  /-- A number, a date or a time. -/
  | number
  | array (items : List Value)
  | inline (dotted : Bool) (members : List (String × Value))

/-- What keys lead to in a document. -/
inductive Item
  | value (v : Value)
  /-- A table. It is implicit if no header of its own made it, and dotted if a dotted key did. -/
  | table (implicit dotted : Bool) (members : List (String × Item))
  /-- The tables of an array, the latest first. -/
  | tables (items : List (List (String × Item)))

/-- The statements of a document. -/
inductive Statement
  | assign (path : List String) (v : Value)
  | table (path : List String)
  | element (path : List String)

/-! ## Inline tables -/

/-- `v` under a key of an inline table, where dotted keys may add to what dotted keys made. -/
def insertInline (v : Value) :
    List String → List (String × Value) → Except TomlError (List (String × Value))
  | [], _ => .error .keyExpected
  | [k], members =>
    if (members.lookup k).isSome then .error (.repeatedKey k) else .ok (members ++ [(k, v)])
  | k :: path, members =>
    match members.lookup k with
    | none => do return members ++ [(k, .inline true (← insertInline v path []))]
    | some (.inline true inner) => do
      let inner ← insertInline v path inner
      return members.map fun m => if m.1 = k then (k, .inline true inner) else m
    | some (.inline false _) => .error (.repeatedKey k)
    | some _ => .error (.notATable k)

/-! ## Reading statements -/

/-- Nesting is limited to fewer levels than this. -/
def depthLimit : Nat := 80

/-- The characters of keys that are not quoted. -/
def isKeyChar (c : Char) : Bool :=
  c.isAlphanum || c == '_' || c == '-'

/-- What follows the blanks that stand here. -/
def skipBlanks (cs : List Char) : List Char :=
  cs.dropWhile Text.isBlank

/-- A key without dots. -/
def readSimpleKey (cs : List Char) : Except TomlError (String × List Char) :=
  match Text.readLine? cs with
  | some r => r.map fun (s, rest) => (.ofList s, rest)
  | none =>
    let name := cs.takeWhile isKeyChar
    if name.isEmpty then .error .keyExpected
    else .ok (.ofList name, cs.dropWhile isKeyChar)

/-- A key, perhaps dotted, with the blanks around it. Each unit of fuel takes a part. -/
def readKey : Nat → List Char → Except TomlError (List String × List Char)
  | 0, _ => .error .tooDeep
  | fuel + 1, cs => do
    let (k, rest) ← readSimpleKey (skipBlanks cs)
    match skipBlanks rest with
    | '.' :: rest =>
      let (ks, rest) ← readKey fuel rest
      return (k :: ks, rest)
    | rest => return ([k], rest)

/-- What follows a comment, if one stands here. -/
def skipComment : List Char → List Char
  | '#' :: rest => rest.dropWhile isPlain
  | cs => cs

/-- What follows the end of a line, with the blanks and the comment before it. -/
def endLine (cs : List Char) : Except TomlError (List Char) :=
  match skipComment (skipBlanks cs) with
  | [] => .ok []
  | rest =>
    match Text.lineEnd? rest with
    | some rest => .ok rest
    | none => .error .lineEndExpected

/-- What follows the blanks, comments and line ends that stand here. Each unit of fuel takes a
line. -/
def skipLines : Nat → List Char → Except TomlError (List Char)
  | 0, cs => .ok cs
  | fuel + 1, cs =>
    match skipBlanks cs with
    | '#' :: rest => do skipLines fuel (← endLine ('#' :: rest))
    | cs =>
      match Text.lineEnd? cs with
      | some rest => skipLines fuel rest
      | none => .ok cs

mutual

/-- A value at a depth of nesting. Each unit of fuel takes at least a character. -/
def readValue (depth : Nat) : Nat → List Char → Except TomlError (Value × List Char)
  | 0, _ => .error .valueExpected
  | fuel + 1, cs =>
    match Text.read? cs with
    | some r => r.map fun (s, rest) => (.text (.ofList s), rest)
    | none =>
      match cs with
      | '[' :: rest =>
        if depthLimit ≤ depth + 1 then .error .tooDeep
        else (readItems (depth + 1) fuel rest).map fun (items, rest) => (.array items, rest)
      | '\x7b' :: rest =>
        if depthLimit ≤ depth + 1 then .error .tooDeep
        else
          match skipBlanks rest with
          | '\x7d' :: rest => .ok (.inline false [], rest)
          | rest =>
            (readMembers (depth + 1) fuel [] rest).map fun (ms, rest) => (.inline false ms, rest)
      | 't' :: 'r' :: 'u' :: 'e' :: rest => .ok (.bool true, rest)
      | 'f' :: 'a' :: 'l' :: 's' :: 'e' :: rest => .ok (.bool false, rest)
      | cs =>
        match Number.read? cs with
        | some rest => .ok (.number, rest)
        | none => .error .badNumber

/-- The items of an array, up to its end. -/
def readItems (depth : Nat) : Nat → List Char → Except TomlError (List Value × List Char)
  | 0, _ => .error .bracketExpected
  | fuel + 1, cs => do
    match ← skipLines cs.length cs with
    | ']' :: rest => return ([], rest)
    | cs =>
      let (v, rest) ← readValue depth fuel cs
      match ← skipLines rest.length rest with
      | ']' :: rest => return ([v], rest)
      | ',' :: rest =>
        let (vs, rest) ← readItems depth fuel rest
        return (v :: vs, rest)
      | _ => throw .commaExpected

/-- The members of an inline table, after those read already, up to its end. -/
def readMembers (depth : Nat) :
    Nat → List (String × Value) → List Char →
      Except TomlError (List (String × Value) × List Char)
  | 0, _, _ => .error .commaExpected
  | fuel + 1, members, cs => do
    let (path, rest) ← readKey depthLimit.pred cs
    match rest with
    | '=' :: rest =>
      let (v, rest) ← readValue depth fuel (skipBlanks rest)
      let members ← insertInline v path members
      match skipBlanks rest with
      | '\x7d' :: rest => return (members, rest)
      | ',' :: rest => readMembers depth fuel members rest
      | _ => throw .commaExpected
    | _ => throw .equalsExpected

end

/-- A header of a table, between `brackets` brackets on each side. -/
def readHeader (brackets : Nat) (cs : List Char) : Except TomlError (List String × List Char) := do
  let (path, rest) ← readKey depthLimit.pred cs
  if rest.take brackets = List.replicate brackets ']' then
    return (path, rest.drop brackets)
  else throw .bracketExpected

/-- The statement of a line. -/
def readStatement (cs : List Char) : Except TomlError (Statement × List Char) :=
  match cs with
  | '[' :: '[' :: rest => (readHeader 2 rest).map fun (path, rest) => (.element path, rest)
  | '[' :: rest => (readHeader 1 rest).map fun (path, rest) => (.table path, rest)
  | _ => do
    let (path, rest) ← readKey depthLimit.pred cs
    match rest with
    | '=' :: rest =>
      let rest := skipBlanks rest
      let (v, rest) ← readValue 0 (rest.length + 1) rest
      return (.assign path v, rest)
    | _ => throw .equalsExpected

/-- The statements of a text. Each unit of fuel takes a statement and its line end. -/
def readStatements : Nat → List Char → Except TomlError (List Statement)
  | 0, _ => .ok []
  | fuel + 1, cs => do
    match ← skipLines cs.length cs with
    | [] => return []
    | cs =>
      let (s, rest) ← readStatement cs
      let rest ← endLine rest
      return s :: (← readStatements fuel rest)

/-! ## Tables -/

abbrev Members := List (String × Item)

/-- The members with what `k` leads to replaced, or put at their end. -/
def setMember (k : String) (item : Item) (members : Members) : Members :=
  if (members.lookup k).isSome then
    members.map fun m => if m.1 = k then (k, item) else m
  else members ++ [(k, item)]

/-- Changes the table that a path leads to, which is made where it is missing. A dotted path leads
through implicit tables only. In an array the path goes on in the latest table. -/
def descend (dotted : Bool) (change : Bool → Members → Except TomlError Members) :
    List String → Bool → Members → Except TomlError Members
  | [], isDotted, members => change isDotted members
  | k :: path, _, members =>
    match members.lookup k with
    | none => do
      let inner ← descend dotted change path dotted []
      return setMember k (.table true dotted inner) members
    | some (.table implicit isDotted inner) =>
      if dotted && !implicit then .error (.repeatedKey k)
      else do
        let inner ← descend dotted change path isDotted inner
        return setMember k (.table implicit isDotted inner) members
    | some (.tables (latest :: earlier)) => do
      let latest ← descend dotted change path false latest
      return setMember k (.tables (latest :: earlier)) members
    | some (.tables []) => .error (.notATable k)
    | some (.value _) => .error (.notATable k)

/-- A value under a key of a table. A dotted key adds to tables that dotted keys made. -/
def assign (path : List String) (v : Value) (members : Members) : Except TomlError Members :=
  match path.reverse with
  | [] => .error .keyExpected
  | k :: front =>
    descend true (fun isDotted inner =>
      if isDotted == front.isEmpty then .error (.repeatedKey k)
      else if (inner.lookup k).isSome then .error (.repeatedKey k)
      else .ok (inner ++ [(k, .value v)])) front.reverse false members

/-- The document so far: the tables that are complete, and the one that is being filled. -/
structure Builder where
  root : Members
  /-- Where the table belongs; the root itself if the path is empty. -/
  path : List String
  /-- Whether the table is an element of an array. -/
  isElement : Bool
  current : Members

namespace Builder

/-- Before the first statement. -/
def empty : Builder := ⟨[], [], false, []⟩

/-- The document with the current table put in its place. -/
def close (b : Builder) : Except TomlError Members :=
  match b.path.reverse with
  | [] => .ok b.current
  | k :: front =>
    descend false (fun _ inner =>
      match inner.lookup k, b.isElement with
      | some (.tables ts), true => .ok (setMember k (.tables (b.current :: ts)) inner)
      | none, true => .ok (setMember k (.tables [b.current]) inner)
      | none, false => .ok (setMember k (.table false false b.current) inner)
      | _, _ => .error (.repeatedKey k)) front.reverse false b.root

/-- Starts the table of a header. A table that only its subtables made so far is taken up again. -/
def openTable (b : Builder) (path : List String) : Except TomlError Builder := do
  let root ← b.close
  match path.reverse with
  | [] => throw .keyExpected
  | k :: front =>
    let found : Option Item := do
      let inner ← lookupIn front.reverse root
      inner.lookup k
    let current ← match found with
      | none => pure []
      | some (.table true false inner) => pure inner
      | some _ => throw (.repeatedKey k)
    let root ← descend false (fun _ inner => .ok (inner.filter (·.1 ≠ k))) front.reverse false root
    return ⟨root, path, false, current⟩
where
  /-- The members of the table that a path leads to. -/
  lookupIn : List String → Members → Option Members
    | [], members => some members
    | k :: path, members =>
      match members.lookup k with
      | some (.table _ _ inner) => lookupIn path inner
      | some (.tables (latest :: _)) => lookupIn path latest
      | _ => none

/-- Starts an element of an array of tables. -/
def openElement (b : Builder) (path : List String) : Except TomlError Builder := do
  let root ← b.close
  match path.reverse with
  | [] => throw .keyExpected
  | k :: front =>
    let root ← descend false (fun _ inner =>
      match inner.lookup k with
      | none | some (.tables _) => .ok inner
      | some _ => .error (.repeatedKey k)) front.reverse false root
    return ⟨root, path, true, []⟩

/-- With a statement more. -/
def add (b : Builder) : Statement → Except TomlError Builder
  | .assign path v => do return { b with current := ← Toml.assign path v b.current }
  | .table path => b.openTable path
  | .element path => b.openElement path

end Builder

/-- The table that a text writes. A byte order mark before it is passed over. -/
def read (text : String) : Except TomlError Members := do
  let cs := text.toList
  let cs := if cs.head? = some '\ufeff' then cs.tail else cs
  let statements ← readStatements (cs.length + 1) cs
  (← statements.foldlM Builder.add Builder.empty).close

end Amend.Toml
