/-!
# Why a TOML document is refused
-/

set_option autoImplicit false

namespace Amend

/-- The faults of TOML documents. -/
inductive TomlError
  | unclosedText
  | forbiddenCharacter
  | badEscape
  | badNumber
  | keyExpected
  | equalsExpected
  | valueExpected
  | commaExpected
  | bracketExpected
  | lineEndExpected
  /-- A key, or a table, is given a second time. -/
  | repeatedKey (key : String)
  /-- A key leads into a value that is no table. -/
  | notATable (key : String)
  | tooDeep
  /-- A value has not the type that its key demands. -/
  | wrongType (key expected : String)
  deriving DecidableEq, Repr

/-- The wording of a fault. -/
def TomlError.message : TomlError → String
  | unclosedText => "unclosed string"
  | forbiddenCharacter => "control characters are not allowed"
  | badEscape => "invalid escape sequence"
  | badNumber => "invalid number"
  | keyExpected => "expected key"
  | equalsExpected => "expected `=`"
  | valueExpected => "expected value"
  | commaExpected => "expected `,`"
  | bracketExpected => "expected `]`"
  | lineEndExpected => "expected newline, `#`"
  | repeatedKey key => s!"duplicate key `{key}`"
  | notATable key => s!"dotted key `{key}` attempted to extend non-table type"
  | tooDeep => "recursion limit exceeded"
  | wrongType key expected => s!"invalid type of `{key}`, expected {expected}"

end Amend
