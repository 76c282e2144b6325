import Amend.Unicode.Break
import Amend.Unicode.Property
import Amend.Unicode.Script

/-!
# Sets of characters by name

Patterns name sets of characters as `\p{Greek}`, `\p{L}` or `\p{Script=Greek}`. Names are compared
without case, blanks, `_`, `-` and a leading `is`.
-/

set_option autoImplicit false

namespace Amend.Unicode

/-- The form in which names are compared. -/
def foldName (name : String) : String :=
  let cs := name.toList
  let (startsWithIs, body) :=
    match cs with
    | i :: s :: rest => if i.toLower = 'i' && s.toLower = 's' then (true, rest) else (false, cs)
    | _ => (false, cs)
  let kept := (body.filter fun c => c != ' ' && c != '_' && c != '-' && c.toNat < 128).map
    Char.toLower
  -- `isc` is a name of its own, not `c` with a leading `is`
  if startsWithIs && kept == ['c'] then "isc" else .ofList kept

/-- Names of properties that are not binary. Alone they name no set of characters, although some
could be read as a category. -/
def valuedProperties : List String :=
  ["generalcategory", "gc", "script", "scriptextensions", "scx", "age", "graphemeclusterbreak",
    "gcb", "wordbreak", "wb", "sentencebreak", "sb"]

/-- The set of characters that a single name stands for: a binary property, a general category
or a script. `cf`, `sc` and `lc` are read as categories. -/
def setNamed? (name : String) : Option (Char → Bool) :=
  let n := foldName name
  if valuedProperties.contains n then none
  else
    match (if n == "cf" || n == "sc" || n == "lc" then none else Property.named? n) with
    | some p => some p
    | none =>
      match Category.named? n with
      | some p => some p
      | none => (Script.named? n).map Script.contains

/-- The set of characters for which the property `name` has the value `value`. -/
def setValued? (name value : String) : Option (Char → Bool) :=
  let v := foldName value
  match foldName name with
  | "generalcategory" | "gc" | "category" => Category.named? v
  | "script" | "sc" => (Script.named? v).map Script.contains
  | "scriptextensions" | "scx" => (Script.named? v).map Script.extends?
  | "age" => Break.assignedBy? v
  | "graphemeclusterbreak" | "gcb" => Break.valued? Break.graphemeNames Break.grapheme v
  | "wordbreak" | "wb" => Break.valued? Break.wordNames Break.word v
  | "sentencebreak" | "sb" => Break.valued? Break.sentenceNames Break.sentence v
  | _ => none

end Amend.Unicode
