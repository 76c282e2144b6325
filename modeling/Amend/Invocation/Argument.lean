/-!
# Arguments

What an argument of a command line looks like, whatever it means.
-/

set_option autoImplicit false

namespace Amend

/-- An argument by its looks. -/
inductive Argument
  /-- Two dashes: no options follow. -/
  | escape
  /-- Two dashes and a name, with a value after an equals sign or without. -/
  | long (name : String) (value : Option String)
  /-- A dash and letters. -/
  | short (letters : List Char)
  | plain (text : String)
  deriving DecidableEq, Repr

/-- What is before the first equals sign, and what is after it. -/
def Argument.splitEquals : List Char → List Char × Option (List Char)
  | [] => ([], none)
  | c :: cs =>
    if c = '=' then ([], some cs)
    else
      let (name, value) := splitEquals cs
      (c :: name, value)

/-- An argument by its looks. A single dash is plain. -/
def Argument.ofString (text : String) : Argument :=
  match text.toList with
  | ['-', '-'] => .escape
  | '-' :: '-' :: rest =>
    let (name, value) := splitEquals rest
    .long (.ofList name) (value.map String.ofList)
  | '-' :: c :: rest => .short (c :: rest)
  | _ => .plain text

end Amend
