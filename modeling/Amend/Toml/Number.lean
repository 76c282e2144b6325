import Amend.Toml.Text

/-!
# TOML numbers, dates and times

No setting is a number or a date, so these are only checked: each function gives what follows the
number, or nothing if none stands here.
-/

set_option autoImplicit false

namespace Amend.Toml.Number

/-- Digits, with single underscores between them: the digits, and what follows. -/
def digits? (isDigit : Char → Bool) : List Char → Option (List Char × List Char)
  | [] => none
  | c :: rest =>
    if isDigit c then
      match rest with
      | '_' :: rest => (digits? isDigit rest).map fun (ds, rest) => (c :: ds, rest)
      | rest =>
        match digits? isDigit rest with
        | some (ds, rest) => some (c :: ds, rest)
        | none => some ([c], rest)
    else none

/-- The number that decimal digits write. -/
def value (digits : List Char) : Nat :=
  digits.foldl (fun n c => 10 * n + (c.toNat - '0'.toNat)) 0

/-- Whether there is a minus sign, and what follows the sign. -/
def sign : List Char → Bool × List Char
  | '-' :: rest => (true, rest)
  | '+' :: rest => (false, rest)
  | cs => (false, cs)

/-- The digits before a decimal point. Zero has no digits after it. -/
def whole? (cs : List Char) : Option (List Char × List Char) :=
  match cs with
  | '0' :: rest => some (['0'], rest)
  | _ => digits? Char.isDigit cs

/-- An integer in a base other than ten, of 63 bits. -/
def based? (base : Nat) (cs : List Char) : Option (List Char) := do
  let valueIn (c : Char) : Option Nat := (Text.hexValue? c).filter (· < base)
  let (ds, rest) ← digits? (fun c => (valueIn c).isSome) cs
  let n := ds.foldl (fun n c => base * n + (valueIn c).getD 0) 0
  if n < Nat.pow 2 63 then some rest else none

/-- An integer of 64 bits. -/
def integer? (cs : List Char) : Option (List Char) :=
  match cs with
  | '0' :: 'x' :: rest => based? 16 rest
  | '0' :: 'o' :: rest => based? 8 rest
  | '0' :: 'b' :: rest => based? 2 rest
  | _ => do
    let (negative, cs) := sign cs
    let (ds, rest) ← whole? cs
    let n := value ds
    if n < Nat.pow 2 63 || negative && n = Nat.pow 2 63 then some rest else none

/-- A decimal exponent, and what follows. -/
def exponent? : List Char → Option (Int × List Char)
  | c :: rest =>
    if c == 'e' || c == 'E' then do
      let (negative, rest) := sign rest
      let (ds, rest) ← digits? Char.isDigit rest
      let n : Int := value ds
      some (if negative then -n else n, rest)
    else none
  | [] => none

/-- Whether the decimal number `n * 10 ^ e` rounds to a number of 64 bits with a fraction. -/
def isFinite (n : Nat) (e : Int) : Bool :=
  if n = 0 then true
  else if 400 < e then false
  else if e < 0 then n < (Nat.pow 2 1024 - Nat.pow 2 970) * Nat.pow 10 (min e.natAbs 6000)
  else n * Nat.pow 10 e.natAbs < Nat.pow 2 1024 - Nat.pow 2 970

/-- A number with a fraction or an exponent. -/
def fraction? (cs : List Char) : Option (List Char) := do
  let (negative, cs) := sign cs
  match cs with
  | 'i' :: 'n' :: 'f' :: rest => some rest
  | 'n' :: 'a' :: 'n' :: rest => some rest
  | _ =>
    let (ds, rest) ← whole? cs
    let (fs, rest, pointed) ← match rest with
      | '.' :: rest => (digits? Char.isDigit rest).map fun (fs, rest) => (fs, rest, true)
      | rest => some ([], rest, false)
    let (e, rest) ← match exponent? rest with
      | some (e, rest) => some (e, rest)
      | none => if pointed then some (0, rest) else none
    if negative || isFinite (value (ds ++ fs)) (e - fs.length) then some rest else none

/-- A number of exactly `n` digits. -/
def fixed? (n : Nat) (cs : List Char) : Option (Nat × List Char) :=
  let ds := cs.take n
  if ds.length = n && ds.all Char.isDigit then some (value ds, cs.drop n) else none

/-- What follows `c`, if that stands here. -/
def after? (c : Char) : List Char → Option (List Char)
  | d :: rest => if d = c then some rest else none
  | [] => none

/-- The number of days of a month. -/
def daysIn (year month : Nat) : Nat :=
  if month = 2 then
    (if year % 4 = 0 && (year % 100 ≠ 0 || year % 400 = 0) then 29 else 28)
  else if month = 4 || month = 6 || month = 9 || month = 11 then 30
  else 31

/-- A date. -/
def date? (cs : List Char) : Option (List Char) := do
  let (year, cs) ← fixed? 4 cs
  let (month, cs) ← fixed? 2 (← after? '-' cs)
  let (day, cs) ← fixed? 2 (← after? '-' cs)
  if 1 ≤ month && month ≤ 12 && 1 ≤ day && day ≤ daysIn year month then some cs else none

/-- An hour and a minute. -/
def hourMinute? (cs : List Char) : Option (List Char) := do
  let (hour, cs) ← fixed? 2 cs
  let (minute, cs) ← fixed? 2 (← after? ':' cs)
  if hour ≤ 23 && minute ≤ 59 then some cs else none

/-- A time of day, perhaps with a fraction of a second. -/
def time? (cs : List Char) : Option (List Char) := do
  let (second, cs) ← fixed? 2 (← after? ':' (← hourMinute? cs))
  if 60 < second then none
  match cs with
  | '.' :: rest =>
    if rest.head?.any Char.isDigit then some (rest.dropWhile Char.isDigit) else some cs
  | cs => some cs

/-- The distance of a time from universal time. -/
def offset? : List Char → Option (List Char)
  | c :: rest =>
    if c == 'Z' || c == 'z' then some rest
    else if c == '+' || c == '-' then hourMinute? rest
    else none
  | [] => none

/-- A date, a time of day, or both, then perhaps with an offset. -/
def moment? (cs : List Char) : Option (List Char) :=
  match date? cs with
  | none => time? cs
  | some rest =>
    let timed := match rest with
      | c :: rest => if c == 'T' || c == 't' || c == ' ' then time? rest else none
      | [] => none
    match timed with
    | some rest => some ((offset? rest).getD rest)
    | none => some rest

/-- A date or number that starts here. -/
def read? (cs : List Char) : Option (List Char) :=
  (moment? cs).or ((fraction? cs).or (integer? cs))

end Amend.Toml.Number
