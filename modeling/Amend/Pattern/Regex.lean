import Amend.Unicode.Letter

/-!
# Regular expressions

The expressions that patterns are read into. Every construct of the pattern language comes down to
the seven below: bounded repetition is written out, and flags are resolved while reading.
-/

set_option autoImplicit false

namespace Amend

/-- Which characters make up words. -/
inductive Alphabet
  | unicode | ascii
  deriving DecidableEq, Repr

/-- Whether `c` can stand in a word. -/
def Alphabet.isWord : Alphabet → Char → Bool
  | .unicode => Unicode.isWord
  | .ascii => Unicode.isAsciiWord

/-- Conditions on a position between two characters. -/
inductive Assertion
  | textStart
  | textEnd
  /-- The start of a line; with `crlf`, `\r\n` ends a line as a whole, and `\r` alone does too. -/
  | lineStart (crlf : Bool)
  | lineEnd (crlf : Bool)
  | wordBoundary (a : Alphabet)
  | notWordBoundary (a : Alphabet)
  | wordStart (a : Alphabet)
  | wordEnd (a : Alphabet)
  | wordStartHalf (a : Alphabet)
  | wordEndHalf (a : Alphabet)
  deriving DecidableEq, Repr

/-- Whether the assertion holds between `before` and `after`, which are absent at the ends of the
text. -/
def Assertion.holds (before after : Option Char) : Assertion → Bool
  | .textStart => before.isNone
  | .textEnd => after.isNone
  | .lineStart false => before.isNone || before == some '\n'
  | .lineEnd false => after.isNone || after == some '\n'
  | .lineStart true =>
    before.isNone || before == some '\n' || before == some '\r' && after != some '\n'
  | .lineEnd true =>
    after.isNone || after == some '\r' || after == some '\n' && before != some '\r'
  | .wordBoundary a => before.any a.isWord != after.any a.isWord
  | .notWordBoundary a => before.any a.isWord == after.any a.isWord
  | .wordStart a => !before.any a.isWord && after.any a.isWord
  | .wordEnd a => before.any a.isWord && !after.any a.isWord
  | .wordStartHalf a => !before.any a.isWord
  | .wordEndHalf a => !after.any a.isWord

/-- Regular expressions with numbered groups. Where there is a choice, the first alternative is
preferred, and a greedy repetition prefers to go on. -/
inductive Regex
  /-- The empty text. -/
  | empty
  /-- One character of a set. -/
  | set (p : Char → Bool)
  | assert (a : Assertion)
  /-- What `r` matches, remembered under a number. -/
  | group (index : Nat) (r : Regex)
  | seq (r s : Regex)
  | alt (r s : Regex)
  /-- One or more times. -/
  | plus (greedy : Bool) (r : Regex)

namespace Regex

/-- At most once. -/
def opt (greedy : Bool) (r : Regex) : Regex :=
  if greedy then .alt r .empty else .alt .empty r

/-- Any number of times. -/
def star (greedy : Bool) (r : Regex) : Regex :=
  opt greedy (.plus greedy r)

/-- One after the other. -/
def concat : List Regex → Regex
  | [] => .empty
  | [r] => r
  | r :: rs => .seq r (concat rs)

/-- One of them, the earlier the better. -/
def oneOf : List Regex → Regex
  | [] => .empty
  | [r] => r
  | r :: rs => .alt r (oneOf rs)

/-- `n` times, followed by `last`. -/
def copies (r last : Regex) : Nat → Regex
  | 0 => last
  | n + 1 => .seq r (copies r last n)

/-- At most `n` times. -/
def upTo (greedy : Bool) (r : Regex) : Nat → Regex
  | 0 => .empty
  | n + 1 => opt greedy (.seq r (upTo greedy r n))

/-- Whether only the empty text can match. -/
def onlyEmpty : Regex → Bool
  | empty => true
  | set _ => false
  | assert _ => true
  | group _ r => r.onlyEmpty
  | seq r s => r.onlyEmpty && s.onlyEmpty
  | alt r s => r.onlyEmpty && s.onlyEmpty
  | plus _ r => r.onlyEmpty

/-- At least `least` times, and at most `most` times if there is such a bound. More than one
round is of no use to an expression that matches the empty text only. -/
def times (greedy : Bool) (least : Nat) (most : Option Nat) (r : Regex) : Regex :=
  let (least, most) :=
    if r.onlyEmpty then (min least 1, some ((most.getD 1).min 1)) else (least, most)
  match least, most with
  | 0, none => star greedy r
  | n + 1, none => copies r (.plus greedy r) n
  | 0, some m => upTo greedy r m
  | 1, some 1 => r
  | n + 1, some m => copies r (if m ≤ n + 1 then r else .seq r (upTo greedy r (m - (n + 1)))) n

/-- The numbers of the groups, each as often as it occurs. -/
def groups : Regex → List Nat
  | empty | set _ | assert _ => []
  | group i r => i :: r.groups
  | seq r s | alt r s => r.groups ++ s.groups
  | plus _ r => r.groups

end Regex

end Amend
