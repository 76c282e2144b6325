/-!
# Styled text

Texts are painted with the escape sequences of terminals, or left plain where these are off.
-/

set_option autoImplicit false

namespace Amend

/-- The colours that are used. -/
inductive Colour
  | red | green | yellow | cyan | brightCyan
  deriving DecidableEq, Repr

/-- The number of a colour. -/
def Colour.code : Colour → String
  | red => "31"
  | green => "32"
  | yellow => "33"
  | cyan => "36"
  | brightCyan => "96"

/-- How a text is painted. -/
structure Style where
  bold : Bool := false
  dimmed : Bool := false
  colour : Option Colour := none
  deriving DecidableEq, Repr

namespace Style

def red : Style := { colour := some .red }
def green : Style := { colour := some .green }
def yellow : Style := { colour := some .yellow }
def cyan : Style := { colour := some .cyan }
def brightCyan : Style := { colour := some .brightCyan }
def faint : Style := { dimmed := true }
def plain : Style := {}

/-- The style in bold. -/
def strong (s : Style) : Style := { s with bold := true }

/-- The sequence that ends all styles. -/
def reset : String := "\x1b[0m"

/-- The sequence that starts a style. -/
def start (s : Style) : String :=
  "\x1b[" ++ ";".intercalate
    ((if s.bold then ["1"] else []) ++ (if s.dimmed then ["2"] else []) ++
      (s.colour.map Colour.code).toList) ++ "m"

/-- `text` with `sequence` put after each end of all styles in it, so that a style outlasts them. -/
def resume (sequence : List Char) : List Char → List Char
  | '\x1b' :: '[' :: '0' :: 'm' :: rest => reset.toList ++ sequence ++ resume sequence rest
  | c :: rest => c :: resume sequence rest
  | [] => []

/-- `text` in this style, if painting is on. -/
def paint (on : Bool) (s : Style) (text : String) : String :=
  if !on || s == plain then text
  else s.start ++ .ofList (resume s.start.toList text.toList) ++ reset

end Style

/-- `text` with blanks after it, up to `width` characters. -/
def padRight (width : Nat) (text : String) : String :=
  text ++ .ofList (List.replicate (width - text.length) ' ')

end Amend
