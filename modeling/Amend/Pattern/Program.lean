import Amend.Pattern.Regex

/-!
# Programs that match

A regular expression is run as a program: a list of instructions that each name the addresses
where the matching goes on. `Regex.compile r s t` is the code of `r` at address `s` that goes on at
`t` once `r` has matched; it has `r.size` instructions.
-/

set_option autoImplicit false

namespace Amend

/-- The instructions of a matching program. -/
inductive Instr
  /-- The text read so far matches. -/
  | accept
  | jump (next : Nat)
  /-- Reads one character of a set. -/
  | char (p : Char → Bool) (next : Nat)
  | assert (a : Assertion) (next : Nat)
  /-- Remembers the position in a slot. -/
  | save (slot next : Nat)
  /-- Goes on at either address, preferring the first. -/
  | split (first second : Nat)

namespace Regex

/-- The number of instructions of the code for an expression. -/
def size : Regex → Nat
  | empty | set _ | assert _ => 1
  | group _ r => r.size + 2
  | seq r s => r.size + s.size
  | alt r s => r.size + s.size + 1
  | plus _ r => r.size + 1

/-- The code of an expression at address `s` that goes on at address `t`. Group `i` keeps its ends
in the slots `2 * i` and `2 * i + 1`. -/
def code (s t : Nat) : Regex → List Instr
  | empty => [.jump t]
  | set p => [.char p t]
  | assert a => [.assert a t]
  | group i r =>
    .save (2 * i) (s + 1) :: (code (s + 1) (s + 1 + r.size) r ++ [.save (2 * i + 1) t])
  | seq r₁ r₂ => code s (s + r₁.size) r₁ ++ code (s + r₁.size) t r₂
  | alt r₁ r₂ =>
    .split (s + 1) (s + 1 + r₁.size) ::
      (code (s + 1) t r₁ ++ code (s + 1 + r₁.size) t r₂)
  | plus greedy r =>
    code s (s + r.size) r ++ [if greedy then .split s t else .split t s]

theorem length_code (s t : Nat) (r : Regex) : (r.code s t).length = r.size := by
  induction r generalizing s t with
  | empty | set | assert => rfl
  | group i r ih => simp [code, size, ih]
  | seq r₁ r₂ ih₁ ih₂ => simp [code, size, ih₁, ih₂]
  | alt r₁ r₂ ih₁ ih₂ => simp [code, size, ih₁, ih₂]
  | plus g r ih => simp [code, size, ih]

/-- The whole program of an expression: its code, and then success. -/
def compile (r : Regex) : Array Instr :=
  (r.code 0 r.size ++ [Instr.accept]).toArray

end Regex

end Amend
