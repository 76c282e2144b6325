import Amend.Pattern.Program

/-!
# Searching a text

The program of a pattern is explored depth first, preferred choices first. No pair of an address
and a position is explored twice: what failed there once fails again. So a search takes at most
as many steps as there are such pairs, and the first success is the preferred match.
-/

set_option autoImplicit false

namespace Amend

/-- A match: the span from `start` up to `stop`, and the positions that the program saved, the
latest first, as pairs of slot and position. -/
structure Match where
  start : Nat
  stop : Nat
  saved : List (Nat × Nat)
  deriving Repr, DecidableEq

/-- The span of group `i`, if the group took part in the match. Group 0 is the whole match. -/
def Match.group? (m : Match) (i : Nat) : Option (Nat × Nat) :=
  if i = 0 then some (m.start, m.stop)
  else
    match m.saved.lookup (2 * i), m.saved.lookup (2 * i + 1) with
    | some a, some b => some (a, b)
    | _, _ => none

namespace Search

/-- The pairs of a position and an address that were explored: for each position the addresses, as
the bits of a number. -/
structure Visited where
  rows : Array Nat

namespace Visited

/-- Nothing explored, for positions up to `n`. -/
def none (n : Nat) : Visited :=
  ⟨Array.replicate (n + 1) 0⟩

def contains (v : Visited) (pos pc : Nat) : Bool :=
  (v.rows[pos]?.getD 0).testBit pc

def insert (v : Visited) (pos pc : Nat) : Visited :=
  ⟨v.rows.modify pos (· ||| 1 <<< pc)⟩

end Visited

/-- A place where the exploration goes on. -/
structure Thread where
  pc : Nat
  pos : Nat
  saved : List (Nat × Nat)

/-- Whether assertion `a` holds at position `pos` of `text`. -/
def assertionAt (text : Array Char) (pos : Nat) (a : Assertion) : Bool :=
  a.holds (if pos = 0 then .none else text[pos - 1]?) text[pos]?

/-- The threads that follow a thread, preferred first; nothing if the thread accepts. -/
def successors (program : Array Instr) (text : Array Char) (t : Thread) : Option (List Thread) :=
  match program[t.pc]? with
  | .none => some []
  | some .accept => .none
  | some (.jump next) => some [{ t with pc := next }]
  | some (.char p next) =>
    match text[t.pos]? with
    | some c => some (if p c then [{ t with pc := next, pos := t.pos + 1 }] else [])
    | .none => some []
  | some (.assert a next) =>
    some (if assertionAt text t.pos a then [{ t with pc := next }] else [])
  | some (.save slot next) =>
    some [{ t with pc := next, saved := (slot, t.pos) :: t.saved }]
  | some (.split first second) => some [{ t with pc := first }, { t with pc := second }]

/-- Explores the threads on the stack in order. Each unit of fuel takes one thread off the
stack. -/
def explore (program : Array Instr) (text : Array Char) :
    Nat → Visited → List Thread → Visited × Option Thread
  | 0, v, _ => (v, .none)
  | _ + 1, v, [] => (v, .none)
  | fuel + 1, v, t :: stack =>
    if v.contains t.pos t.pc then explore program text fuel v stack
    else
      match successors program text t with
      | .none => (v, some t)
      | some ts => explore program text fuel (v.insert t.pos t.pc) (ts ++ stack)

/-- Fuel for any exploration: a thread is put on the stack at most twice for each pair of an
address and a position, and once to begin with. -/
def enough (program : Array Instr) (text : Array Char) : Nat :=
  2 * (program.size * (text.size + 1)) + 2

/-- The first match that starts at `start` or at one of the `more` positions after it. What was
explored from an earlier start is not explored again. -/
def firstFrom (program : Array Instr) (text : Array Char) (v : Visited) (start : Nat) :
    Nat → Option Match
  | 0 => .none
  | more + 1 =>
    match explore program text (enough program text) v [⟨0, start, []⟩] with
    | (_, some t) => some ⟨start, t.pos, t.saved⟩
    | (v, .none) => firstFrom program text v (start + 1) more

end Search

/-- The leftmost match of a program in `text` that starts at `start` or later. -/
def searchFrom (program : Array Instr) (text : Array Char) (start : Nat) : Option Match :=
  Search.firstFrom program text (Search.Visited.none text.size) start (text.size + 1 - start)

/-- The successive matches, from left to right. A match that is empty and stands right where the
match before it ended is passed over, and the search goes on one position later. -/
def matchesFrom (program : Array Instr) (text : Array Char) :
    Nat → Nat → Option Nat → List Match
  | 0, _, _ => []
  | fuel + 1, start, last =>
    let found :=
      match searchFrom program text start with
      | some m =>
        if m.start = m.stop ∧ last = some m.stop then searchFrom program text (start + 1)
        else some m
      | none => none
    match found with
    | none => []
    | some m => m :: matchesFrom program text fuel m.stop (some m.stop)

/-- All successive matches of a program in `text`. -/
def allMatches (program : Array Instr) (text : Array Char) : List Match :=
  matchesFrom program text (2 * text.size + 3) 0 none

end Amend
