/-!
# Escapes and formats

Texts with escape sequences, and formats whose signs stand for arguments.
-/

set_option autoImplicit false

namespace Amend.Shell

/-- Three octal digits as a number. -/
def octal (digits : List Char) : Nat :=
  digits.foldl (fun n d => 8 * n + (d.toNat - '0'.toNat)) 0

def isOctal (c : Char) : Bool := '0' ≤ c && c ≤ '7'

/-- The bytes that a text with escape sequences stands for. The number of a byte has up to three
octal digits, after `\0` if `zeroFirst`. -/
def unescape (zeroFirst : Bool) : Nat → List Char → ByteArray
  | 0, _ => .empty
  | fuel + 1, cs =>
    match cs with
    | [] => .empty
    | '\\' :: c :: rest =>
      let byte (n : Nat) (rest : List Char) :=
        ByteArray.mk #[n.toUInt8] ++ unescape zeroFirst fuel rest
      match c with
      | 'a' => byte 7 rest
      | 'b' => byte 8 rest
      | 'f' => byte 12 rest
      | 'n' => byte 10 rest
      | 'r' => byte 13 rest
      | 't' => byte 9 rest
      | 'v' => byte 11 rest
      | '\\' => byte 92 rest
      | c =>
        if zeroFirst && c == '0' then
          let digits := (rest.take 3).takeWhile isOctal
          byte (octal digits) (rest.drop digits.length)
        else if !zeroFirst && isOctal c then
          let digits := ((c :: rest).take 3).takeWhile isOctal
          byte (octal digits) ((c :: rest).drop digits.length)
        else "\\".toUTF8 ++ c.toString.toUTF8 ++ unescape zeroFirst fuel rest
    | c :: rest => c.toString.toUTF8 ++ unescape zeroFirst fuel rest

/-- The bytes of a formatted text and the arguments that are left; `%s` and `%d` stand for the
arguments in turn. -/
def formatOnce : Nat → List Char → List String → ByteArray × List String
  | 0, _, args => (.empty, args)
  | fuel + 1, cs, args =>
    let before (bytes : ByteArray) (rest : List Char) (args : List String) :=
      let (more, args) := formatOnce fuel rest args
      (bytes ++ more, args)
    match cs with
    | [] => (.empty, args)
    | '%' :: '%' :: rest => before "%".toUTF8 rest args
    | '%' :: c :: rest =>
      if c == 's' then before (args.headD "").toUTF8 rest args.tail
      else if c == 'd' then before (args.headD "0").toUTF8 rest args.tail
      else before ("%".toUTF8 ++ c.toString.toUTF8) rest args
    | '\\' :: c :: rest =>
      let digits := ((c :: rest).take 3).takeWhile isOctal
      let n := if digits.isEmpty then 1 else digits.length
      before (unescape false 2 ('\\' :: (c :: rest).take n)) ((c :: rest).drop n) args
    | c :: rest => before c.toString.toUTF8 rest args

/-- The bytes of a formatted text, which is repeated as long as it uses up arguments. -/
def format : Nat → List Char → List String → ByteArray
  | 0, _, _ => .empty
  | fuel + 1, cs, args =>
    let (bytes, left) := formatOnce (cs.length + 1) cs args
    if left.isEmpty || left.length = args.length then bytes else bytes ++ format fuel cs left

end Amend.Shell
