/-!
# Compact tables over code points

A table gives a number to each code point of some disjoint ranges. It is written as a string of
numbers, so that a table of a thousand ranges takes a few lines.
-/

set_option autoImplicit false

namespace Amend.Unicode

/-- What a character says in the number notation: a digit of base 32 and whether it ends its
number. Small letters and `0` to `5` are digits that others follow; capital letters, `6` to `9`,
`+` and `-` are last digits. -/
def digit? (c : Char) : Option (Nat × Bool) :=
  let n := c.toNat
  if 0x61 ≤ n && n ≤ 0x7A then some (n - 0x61, false)
  else if 0x30 ≤ n && n ≤ 0x35 then some (n - 0x30 + 26, false)
  else if 0x41 ≤ n && n ≤ 0x5A then some (n - 0x41, true)
  else if 0x36 ≤ n && n ≤ 0x39 then some (n - 0x36 + 26, true)
  else if c = '+' then some (30, true)
  else if c = '-' then some (31, true)
  else none

/-- The numbers that `text` writes in base 32, most significant digit first. -/
def decodeNumbers (text : String) : List Nat :=
  let step (acc : Array Nat × Nat) (c : Char) : Array Nat × Nat :=
    match digit? c with
    | none => acc
    | some (d, false) => (acc.1, acc.2 * 32 + d)
    | some (d, true) => (acc.1.push (acc.2 * 32 + d), 0)
  (text.toList.foldl step (#[], 0)).1.toList

/-- A closed range of code points and the number that they share. -/
structure Run where
  first : Nat
  last : Nat
  value : Nat

/-- Disjoint runs in increasing order. -/
structure Table where
  runs : Array Run

namespace Table

/-- Reads triples: the gap before a run, its length less one, and its value. -/
def readRuns (next : Nat) (acc : Array Run) : List Nat → Array Run
  | gap :: more :: value :: rest =>
    let first := next + gap
    readRuns (first + more + 1) (acc.push ⟨first, first + more, value⟩) rest
  | _ => acc

/-- Reads pairs: the gap before a range and its length less one. -/
def readRanges (next : Nat) (acc : Array Run) : List Nat → Array Run
  | gap :: more :: rest =>
    let first := next + gap
    readRanges (first + more + 1) (acc.push ⟨first, first + more, 0⟩) rest
  | _ => acc

/-- The table that `text` writes as triples. -/
def ofRuns (text : String) : Table :=
  ⟨readRuns 0 #[] (decodeNumbers text)⟩

/-- The table that `text` writes as pairs, for a set of code points. -/
def ofRanges (text : String) : Table :=
  ⟨readRanges 0 #[] (decodeNumbers text)⟩

/-- Binary search for `n` among the runs from `lo` up to `hi`; `fuel` bounds the halvings. -/
def search (t : Table) (n : Nat) : Nat → Nat → Nat → Option Nat
  | 0, _, _ => none
  | fuel + 1, lo, hi =>
    if lo < hi then
      let mid := (lo + hi) / 2
      match t.runs[mid]? with
      | none => none
      | some run =>
        if n < run.first then t.search n fuel lo mid
        else if run.last < n then t.search n fuel (mid + 1) hi
        else some run.value
    else none

/-- The number that the table gives to the code point `n`. -/
def find? (t : Table) (n : Nat) : Option Nat :=
  t.search n 32 0 t.runs.size

/-- Whether the table holds `c`. -/
def contains (t : Table) (c : Char) : Bool :=
  (t.find? c.toNat).isSome

end Table

end Amend.Unicode
