/-!
# Why a pattern is refused
-/

set_option autoImplicit false

namespace Amend

/-- The faults of a pattern. -/
inductive PatternError
  | groupUnclosed
  | groupUnopened
  | badGroupName
  | repeatedGroupName (name : String)
  | lookAround
  | badFlags
  | nothingToRepeat
  | badRepetition
  | badEscape
  | backReference
  | badCodePoint
  | unknownProperty
  | classUnclosed
  | badClassRange
  | badClassItem
  /-- Without Unicode, a set may hold ASCII characters only: other bytes are no text. -/
  | notText
  /-- A Unicode property is named where Unicode is switched off. -/
  | unicodeOff
  | tooDeep
  | tooLarge
  deriving DecidableEq, Repr

/-- The wording of a fault. -/
def PatternError.message : PatternError → String
  | groupUnclosed => "unclosed group"
  | groupUnopened => "unopened group"
  | badGroupName => "invalid group name"
  | repeatedGroupName name => s!"duplicate group name '{name}'"
  | lookAround => "look-around is not supported"
  | badFlags => "invalid flags"
  | nothingToRepeat => "repetition operator missing expression"
  | badRepetition => "invalid repetition"
  | badEscape => "unrecognized escape sequence"
  | backReference => "backreferences are not supported"
  | badCodePoint => "invalid hexadecimal code point"
  | unknownProperty => "Unicode property not found"
  | classUnclosed => "unclosed character class"
  | badClassRange => "invalid character class range"
  | badClassItem => "invalid item in character class"
  | notText => "pattern can match invalid UTF-8"
  | unicodeOff => "Unicode not allowed here"
  | tooDeep => "pattern exceeds the nesting limit"
  | tooLarge => "compiled pattern exceeds the size limit"

end Amend
