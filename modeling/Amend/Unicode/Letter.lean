import Amend.Unicode.Property

/-!
# Blanks, digits, letters and words

The classes of characters that the program itself relies on. ASCII characters are decided by
themselves, so that no table is consulted for them.
-/

set_option autoImplicit false

namespace Amend.Unicode

/-- The white space characters of ASCII: tab, the line ends, form feed, vertical tab and blank. -/
def isAsciiSpace (c : Char) : Bool :=
  c == ' ' || 0x09 ≤ c.toNat && c.toNat ≤ 0x0D

/-- The ASCII letters, digits and `_`. -/
def isAsciiWord (c : Char) : Bool :=
  c.isAlphanum || c == '_'

/-- The characters with the property White_Space. -/
def isSpace (c : Char) : Bool :=
  if c.toNat < 128 then isAsciiSpace c
  else
    c.toNat == 0x85 || c.toNat == 0xA0 || c.toNat == 0x1680 ||
      0x2000 ≤ c.toNat && c.toNat ≤ 0x200A ||
      c.toNat == 0x2028 || c.toNat == 0x2029 || c.toNat == 0x202F || c.toNat == 0x205F ||
      c.toNat == 0x3000

/-- The decimal digits of all scripts. -/
def isDigit (c : Char) : Bool :=
  if c.toNat < 128 then c.isDigit else Category.of c == .nd

/-- The alphabetic characters. -/
def isAlphabetic (c : Char) : Bool :=
  if c.toNat < 128 then c.isAlpha else Property.alphabetic.contains c

/-- The alphabetic characters and the numbers. -/
def isAlphanumeric (c : Char) : Bool :=
  if c.toNat < 128 then c.isAlphanum
  else Property.alphabetic.contains c || (Category.of c).isNumber

/-- The characters that words are made of: alphabetic characters, marks, decimal digits, connecting
punctuation and the joiners. -/
def isWord (c : Char) : Bool :=
  if c.toNat < 128 then isAsciiWord c
  else
    Property.alphabetic.contains c || c.toNat == 0x200C || c.toNat == 0x200D ||
      (Category.of c).isMark || Category.of c == .nd || Category.of c == .pc

/-- `text` without the white space at both ends. -/
def trim (text : String) : String :=
  .ofList ((text.toList.dropWhile isSpace).reverse.dropWhile isSpace).reverse

/-- `text` without the white space at its end. -/
def trimEnd (text : String) : String :=
  .ofList (text.toList.reverse.dropWhile isSpace).reverse

/-- Whether `text` holds white space only. -/
def isBlank (text : String) : Bool :=
  text.toList.all isSpace

end Amend.Unicode
