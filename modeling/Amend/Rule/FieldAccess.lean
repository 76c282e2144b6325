import Amend.Rule.Definition

/-!
# Rules for field access

A list of field names stands for one rule per name: where `receiver.name` is read, the rule puts an
accessor in its place. The rules come in the order of the names, however these were listed.
-/

set_option autoImplicit false

namespace Amend

/-- `cs` with each occurrence of `old` replaced by `new`, from left to right. `old` must not be
empty. -/
def replaceAll (old new : List Char) : List Char → List Char
  | [] => []
  | c :: cs =>
    if !old.isEmpty && old.isPrefixOf (c :: cs) then
      new ++ replaceAll old new (cs.drop (old.length - 1))
    else c :: replaceAll old new cs
termination_by cs => cs.length
decreasing_by all_goals grind

/-- Whether `old` occurs in `cs`. -/
def occursIn (old : List Char) : List Char → Bool
  | [] => old.isEmpty
  | c :: cs => old.isPrefixOf (c :: cs) || occursIn old cs

/-- The fields of a receiver and how they are read. -/
structure FieldSpec where
  /-- The one receiver that is meant; any identifier if there is none. -/
  receiver : Option String
  accessor : String
  names : List String
  deriving DecidableEq, Repr

namespace FieldSpec

/-- The placeholders of accessors. -/
def receiverMark : String := "\x7breceiver\x7d"

@[inherit_doc receiverMark]
def fieldMark : String := "\x7bfield\x7d"

/-- The accessor where none is given. -/
def defaultAccessor : String :=
  receiverMark ++ ".try_get(\"" ++ fieldMark ++ "\").unwrap_or_default()"

/-- `name` at its place in a sorted list, unless it is there already. -/
def insertName (name : String) : List String → List String
  | [] => [name]
  | n :: ns => if name < n then name :: n :: ns else if name = n then n :: ns
    else n :: insertName name ns

/-- The distinct names in order. -/
def sortedNames (spec : FieldSpec) : List String :=
  spec.names.foldl (fun sorted name => insertName name sorted) []

/-- `name` must be an identifier. -/
def checkIdentifier (role : FieldRole) (name : String) : Except ConfigFault Unit :=
  if isIdentifier name.toList then .ok () else .error (.notIdentifier role name)

/-- The pattern of the receiver. -/
def receiverPattern (spec : FieldSpec) : Except ConfigFault String :=
  match spec.receiver with
  | some name => (checkIdentifier .receiver name).map fun _ => Pattern.escape name
  | none => .ok "[A-Za-z_][A-Za-z0-9_]*"

/-- The pattern of the reads of field `name`. -/
def accessPattern (receiver name : String) : String :=
  "\\b(?P<receiver>" ++ receiver ++ ")\\." ++ Pattern.escape name ++ "\\b"

/-- The replacement text of the reads of field `name`. Dollar signs in the accessor are literal. -/
def replacement (accessor name : String) : String :=
  let literal := replaceAll ['$'] ['$', '$'] accessor.toList
  let received := replaceAll receiverMark.toList ('$' :: receiverMark.toList) literal
  .ofList (replaceAll fieldMark.toList name.toList received)

/-- The rule for field `name`. -/
def ruleFor (accessor receiver name : String) : Except ConfigFault Rule := do
  checkIdentifier .field name
  let id := "field-access:" ++ name
  let pattern ← (compile (accessPattern receiver name)).mapError (ConfigFault.rule id)
  return {
    id
    description := some ("defensive read of ." ++ name)
    pattern
    strategy := .substitution (replacement accessor name) none }

/-- The rules for all fields. -/
def expand (spec : FieldSpec) : Except ConfigFault (List Rule) := do
  if !occursIn receiverMark.toList spec.accessor.toList then
    throw (.accessorWithoutReceiver spec.accessor)
  let receiver ← spec.receiverPattern
  spec.sortedNames.mapM (ruleFor spec.accessor receiver)

end FieldSpec

end Amend
