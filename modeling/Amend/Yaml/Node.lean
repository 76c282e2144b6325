import Amend.Yaml.Token

/-!
# YAML nodes

The tree that the tokens of a document form. Aliases are replaced by what they stand for; a node
cannot contain itself.
-/

set_option autoImplicit false

namespace Amend.Yaml

/-- The nodes of a document. -/
inductive Node
  | scalar (tag : Option String) (style : ScalarStyle) (text : String)
  | sequence (items : List Node)
  | mapping (members : List (Node × Node))

namespace Node

/-- The node where nothing stands. -/
def empty : Node := .scalar none .plain ""

/-- The tokens ahead, and what is known of the document so far. -/
structure State where
  tokens : List Token
  /-- The nodes with anchors, the latest first; none while a node is still being read. -/
  anchors : List (String × Option Node)
  tagHandles : List (String × String)

abbrev Reader := StateT State (Except YamlError)

/-- The next token, which stays there. -/
def peek : Reader (Option Token) := do
  return (← get).tokens.head?

/-- Passes the next token. -/
def skip : Reader Unit :=
  modify fun s => { s with tokens := s.tokens.tail }

/-- The prefix that a tag handle stands for. -/
def expansion (handle : String) : Reader String := do
  if handle.isEmpty then return ""
  match (← get).tagHandles.lookup handle with
  | some expansion => return expansion
  | none =>
    if handle == "!" then return "!"
    else if handle == "!!" then return "tag:yaml.org,2002:"
    else throw .unknownTagHandle

/-- The node under an anchor. -/
def resolve (name : String) : Reader Node := do
  match (← get).anchors.lookup name with
  | some (some n) => return n
  | _ => throw (.unknownAnchor name)

/-- Notes the node under an anchor, if there is one. -/
def note (anchor : Option String) (n : Option Node) : Reader Unit :=
  match anchor with
  | some name => modify fun s => { s with anchors := (name, n) :: s.anchors }
  | none => return

/-- The anchor and the tag before a node, in either order. -/
def properties : Reader (Option String × Option String) := do
  let anchor : Reader (Option String) := do
    match ← peek with
    | some (.anchor name) => skip; return some name
    | _ => return none
  let tag : Reader (Option String) := do
    match ← peek with
    | some (.tag handle suffix) => skip; return some ((← expansion handle) ++ suffix)
    | _ => return none
  let first ← anchor
  let tag ← tag
  let anchor ← if first.isSome || tag.isNone then pure first else anchor
  return (anchor, tag)

mutual

/-- A node. Block collections are read if `block`, and sequences that are not indented if
`indentless`. Each unit of fuel takes a step into the tree or along a collection. -/
def read (block indentless : Bool) : Nat → Reader Node
  | 0 => throw .nodeExpected
  | fuel + 1 => do
    match ← peek with
    | some (.alias name) => skip; resolve name
    | _ =>
      let (anchor, tag) ← properties
      note anchor none
      let n ← match ← peek with
        | some .blockEntry =>
          if indentless then sequence <$> indentlessEntries fuel
          else if anchor.isSome || tag.isSome then pure (scalar tag .plain "")
          else throw .nodeExpected
        | some (.scalar style text) => skip; pure (scalar tag style text)
        | some .flowSequenceStart => skip; sequence <$> flowEntries true fuel
        | some .flowMappingStart => skip; mapping <$> flowMembers true fuel
        | some .blockSequenceStart =>
          if block then skip; sequence <$> blockEntries fuel
          else if anchor.isSome || tag.isSome then pure (scalar tag .plain "")
          else throw .nodeExpected
        | some .blockMappingStart =>
          if block then skip; mapping <$> blockMembers fuel
          else if anchor.isSome || tag.isSome then pure (scalar tag .plain "")
          else throw .nodeExpected
        | _ =>
          if anchor.isSome || tag.isSome then pure (scalar tag .plain "") else throw .nodeExpected
      note anchor (some n)
      return n

/-- The entries of a block sequence, up to its end. -/
def blockEntries : Nat → Reader (List Node)
  | 0 => throw .nodeExpected
  | fuel + 1 => do
    match ← peek with
    | some .blockEntry =>
      skip
      let n ← match ← peek with
        | some .blockEntry | some .blockEnd => pure empty
        | _ => read true false fuel
      return n :: (← blockEntries fuel)
    | some .blockEnd => skip; return []
    | _ => throw .entryExpected

/-- The entries of a sequence that is not indented. -/
def indentlessEntries : Nat → Reader (List Node)
  | 0 => throw .nodeExpected
  | fuel + 1 => do
    match ← peek with
    | some .blockEntry =>
      skip
      let n ← match ← peek with
        | some .blockEntry | some .key | some .value | some .blockEnd => pure empty
        | _ => read true false fuel
      return n :: (← indentlessEntries fuel)
    | _ => return []

/-- The members of a block mapping, up to its end. -/
def blockMembers : Nat → Reader (List (Node × Node))
  | 0 => throw .nodeExpected
  | fuel + 1 => do
    match ← peek with
    | some .key =>
      skip
      let k ← match ← peek with
        | some .key | some .value | some .blockEnd => pure empty
        | _ => read true true fuel
      let v ← match ← peek with
        | some .value =>
          skip
          match ← peek with
          | some .key | some .value | some .blockEnd => pure empty
          | _ => read true true fuel
        | _ => pure empty
      return (k, v) :: (← blockMembers fuel)
    | some .blockEnd => skip; return []
    | _ => throw .keyExpected

/-- The entries of a flow sequence, up to its end. An entry cannot be a member of a mapping: no
list of a catalog holds mappings of one member. -/
def flowEntries (first : Bool) : Nat → Reader (List Node)
  | 0 => throw .nodeExpected
  | fuel + 1 => do
    if !first then
      match ← peek with
      | some .flowEntry => skip
      | some .flowSequenceEnd => pure ()
      | _ => throw .entryExpected
    match ← peek with
    | some .flowSequenceEnd => skip; return []
    | some .key => throw (.wrongShape "a single node")
    | _ =>
      let n ← read false false fuel
      return n :: (← flowEntries false fuel)

/-- The members of a flow mapping, up to its end. A key without a value has the empty one. -/
def flowMembers (first : Bool) : Nat → Reader (List (Node × Node))
  | 0 => throw .nodeExpected
  | fuel + 1 => do
    if !first then
      match ← peek with
      | some .flowEntry => skip
      | some .flowMappingEnd => pure ()
      | _ => throw .entryExpected
    match ← peek with
    | some .flowMappingEnd => skip; return []
    | some .key =>
      skip
      let k ← match ← peek with
        | some .value | some .flowEntry | some .flowMappingEnd => pure empty
        | _ => read false false fuel
      let v ← match ← peek with
        | some .value =>
          skip
          match ← peek with
          | some .flowEntry | some .flowMappingEnd => pure empty
          | _ => read false false fuel
        | _ => pure empty
      return (k, v) :: (← flowMembers false fuel)
    | _ =>
      let k ← read false false fuel
      return (k, empty) :: (← flowMembers false fuel)

end

/-- The directives before a document: at most one version, which must be known, and handles of
tags, each at most once. -/
def directives (versioned : Bool) : List Token → Reader Unit
  | .version major minor :: rest =>
    if versioned then throw .repeatedDirective
    else if major ≠ 1 || minor ≠ 1 && minor ≠ 2 then throw .badVersion
    else directives true rest
  | .tagHandle handle expansion :: rest => do
    if ((← get).tagHandles.lookup handle).isSome then throw .repeatedDirective
    modify fun s => { s with tagHandles := (handle, expansion) :: s.tagHandles }
    directives versioned rest
  | .documentStart :: rest => modify fun s => { s with tokens := rest }
  | _ => throw .documentStartExpected

/-- The root of the first document. -/
def root : Reader Node := do
  let tokens := (← get).tokens
  let fuel := 2 * tokens.length + 4
  match tokens with
  | [] => throw .noDocument
  | .version .. :: _ | .tagHandle .. :: _ | .documentStart :: _ =>
    directives false tokens
    match ← peek with
    | none | some (.version ..) | some (.tagHandle ..) | some .documentStart
    | some .documentEnd => return empty
    | _ => read true false fuel
  | _ => read true false fuel

/-- The root of the only document that the tokens form. -/
def ofTokens? (tokens : List Token) : Except YamlError Node :=
  match root.run ⟨tokens, [], []⟩ with
  | .error e => .error e
  | .ok (n, s) =>
    if (s.tokens.dropWhile (· == .documentEnd)).isEmpty then .ok n
    else .error .moreThanOneDocument

/-- The root of the only document in a text. -/
def ofText? (text : String) : Except YamlError Node := do
  ofTokens? (← Token.ofText? text.toList)

/-! ## Values of known types -/

/-- The tag of a core type. -/
def coreTag (name : String) : String :=
  "tag:yaml.org,2002:" ++ name

/-- A text: any scalar, as it is written. -/
def text? : Node → Except YamlError String
  | .scalar _ _ text => .ok text
  | _ => .error (.wrongShape "a string")

/-- Whether a plain scalar stands for an absent value. -/
def isNull (text : String) : Bool :=
  text == "~" || text == "null" || text == "Null" || text == "NULL"

/-- A value that may be absent. Only plain scalars can stand for its absence. -/
def optional? {α : Type} (value? : Node → Except YamlError α) (n : Node) :
    Except YamlError (Option α) :=
  match n with
  | .scalar none .plain text =>
    if text.isEmpty || isNull text then .ok none else some <$> value? n
  | .scalar (some tag) .plain text =>
    if tag == coreTag "null" then
      (if isNull text then .ok none else .error (.wrongShape "null"))
    else some <$> value? n
  | _ => some <$> value? n

/-- The text of a scalar that can stand for a value of a core type: it is plain, or it is a literal
block with the tag of the type. -/
def literal? (type : String) : Node → Except YamlError String
  | .scalar _ .plain text => .ok text
  | .scalar (some tag) .literal text =>
    if tag == coreTag type then .ok text else .error (.wrongShape type)
  | _ => .error (.wrongShape type)

/-- A truth value. -/
def bool? (n : Node) : Except YamlError Bool := do
  let text ← n.literal? "bool"
  if text == "true" || text == "True" || text == "TRUE" then return true
  else if text == "false" || text == "False" || text == "FALSE" then return false
  else throw (.wrongShape "bool")

/-- The number that digits write in a base, of at most 64 bits. -/
def digits? (base : Nat) (digits : List Char) : Option Nat := do
  if digits.isEmpty then none
  let n ← digits.foldlM (fun n d => do
    let v ← Scalar.hexValue? [d]
    if v < base then some (base * n + v) else none) 0
  if n < UInt64.size then some n else none

/-- A natural number in decimal, or in another base after `0x`, `0o` or `0b`. A decimal number has
no leading zero. -/
def nat? (n : Node) : Except YamlError Nat := do
  let cs := (← n.literal? "int").toList
  let unsigned := if cs.head? = some '+' then cs.tail else cs
  let decimal :=
    if unsigned.length > 1 && unsigned.head? = some '0' && unsigned.all Char.isDigit then none
    else digits? 10 unsigned
  let value := match unsigned with
    | '0' :: 'x' :: ds => digits? 16 ds
    | '0' :: 'o' :: ds => digits? 8 ds
    | '0' :: 'b' :: ds => digits? 2 ds
    | _ => decimal
  match value with
  | some v => return v
  | none => throw (.wrongShape "an integer")

/-- A list. Where nothing stands, it is empty. -/
def list? {α : Type} (value? : Node → Except YamlError α) : Node → Except YamlError (List α)
  | .sequence items => items.mapM value?
  | .scalar _ .plain "" => .ok []
  | _ => .error (.wrongShape "a sequence")

/-- The members of a structure by their names, which are among `names` and distinct. Where nothing
stands, there are none. -/
def members? (names : List String) : Node → Except YamlError (List (String × Node))
  | .mapping members =>
    members.foldlM (fun found (k, v) => do
      let name ← k.text?
      if !names.contains name then throw (.unknownMember name)
      if (found.lookup name).isSome then throw (.repeatedMember name)
      return (name, v) :: found) []
  | .scalar _ .plain "" => .ok []
  | _ => .error (.wrongShape "a mapping")

/-- The value of a member that must be there. -/
def required? {α : Type} (members : List (String × Node)) (name : String)
    (value? : Node → Except YamlError α) : Except YamlError α :=
  match members.lookup name with
  | some n => value? n
  | none => .error (.missingMember name)

/-- The value of a member that has a default. -/
def default? {α : Type} (members : List (String × Node)) (name : String)
    (value? : Node → Except YamlError α) (default : α) : Except YamlError α :=
  match members.lookup name with
  | some n => value? n
  | none => .ok default

end Node

end Amend.Yaml
