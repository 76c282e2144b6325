import Amend.Pattern.Error
import Amend.Pattern.Regex

/-!
# Flags of patterns

The switches `(?i)`, `(?m)`, `(?s)`, `(?U)`, `(?u)`, `(?R)` and `(?x)`, and what they make of
the constructs that depend on them.
-/

set_option autoImplicit false

namespace Amend.Pattern

/-- The switches in force at a place of a pattern. -/
structure Flags where
  ignoreCase : Bool := false
  multiLine : Bool := false
  dotAll : Bool := false
  swapGreed : Bool := false
  unicode : Bool := true
  crlf : Bool := false
  ignoreBlanks : Bool := false
  deriving DecidableEq, Repr

namespace Flags

/-- The flags with the one written `c` switched. -/
def set? (f : Flags) (c : Char) (on : Bool) : Option Flags :=
  match c with
  | 'i' => some { f with ignoreCase := on }
  | 'm' => some { f with multiLine := on }
  | 's' => some { f with dotAll := on }
  | 'U' => some { f with swapGreed := on }
  | 'u' => some { f with unicode := on }
  | 'R' => some { f with crlf := on }
  | 'x' => some { f with ignoreBlanks := on }
  | _ => none

def alphabet (f : Flags) : Alphabet :=
  if f.unicode then .unicode else .ascii

/-- The condition written `^`. -/
def caret (f : Flags) : Assertion :=
  if f.multiLine then .lineStart f.crlf else .textStart

/-- The condition written `$`. -/
def dollar (f : Flags) : Assertion :=
  if f.multiLine then .lineEnd f.crlf else .textEnd

/-- The characters that `.` stands for. -/
def dot (f : Flags) : Except PatternError (Char → Bool) :=
  if !f.unicode then .error .notText
  else if f.dotAll then .ok fun _ => true
  else if f.crlf then .ok fun c => c != '\n' && c != '\r'
  else .ok fun c => c != '\n'

end Flags

/-- The other case of an ASCII letter. -/
def otherCase (c : Char) : Char :=
  if c.isUpper then c.toLower else if c.isLower then c.toUpper else c

end Amend.Pattern
