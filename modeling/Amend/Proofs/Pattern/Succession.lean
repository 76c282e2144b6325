import Amend.Proofs.Pattern.Context

/-!
# Matches one after the other

The matches that are found in a text, by any expression (`Pattern.succession_matchesIn`). Each is
the leftmost one from the end of the match before it on, but for an empty match right at this end:
that one is passed over, and the next position is where the search goes on. So every match ends
after the one before it (`Succession.stop_lt`), and the search comes to the end of the text.
-/

set_option autoImplicit false

namespace Amend

namespace Regex

variable {text : Array Char} {r : Regex} {m m' : Match} {ms : List Match} {start : Nat}
  {last : Option Nat} {found : Option Match}

/-! ## The leftmost match -/

/-- What a search from `start` on comes to: the leftmost match, or nothing where none starts. -/
structure Leftmost (text : Array Char) (r : Regex) (start : Nat) (found : Option Match) :
    Prop where
  searched : searchFrom r.compile text start = found
  takes : ∀ m, found = some m → start ≤ m.start ∧ m.start ≤ text.size ∧
    Takes text r ⟨m.start, []⟩ ⟨m.stop, m.saved⟩
  skips : ∀ i, start ≤ i → i ≤ text.size → (∀ m, found = some m → i < m.start) →
    ∀ b, ¬ Takes text r ⟨i, []⟩ b

theorem leftmost_searchFrom (text : Array Char) (r : Regex) (start : Nat) :
    Leftmost text r start (searchFrom r.compile text start) := by
  cases hsearch : searchFrom r.compile text start with
  | none => exact ⟨hsearch, nofun, fun i hi hsize _ => searchFrom_eq_none hsearch i hi hsize⟩
  | some m =>
    obtain ⟨hle, hsize, htakes, hskips⟩ := searchFrom_eq_some hsearch
    refine ⟨hsearch, fun m' hm' => ?_, fun i hi _ hlt => hskips i hi (hlt m rfl)⟩
    obtain rfl := Option.some.inj hm'
    exact ⟨hle, hsize, htakes⟩

theorem Leftmost.unique {found' : Option Match} (h : Leftmost text r start found)
    (h' : Leftmost text r start found') : found = found' :=
  h.searched.symm.trans h'.searched

theorem Leftmost.span (h : Leftmost text r start (some m)) :
    start ≤ m.start ∧ m.start ≤ m.stop ∧ m.stop ≤ text.size := by
  obtain ⟨hle, hsize, htakes⟩ := h.takes m rfl
  exact ⟨hle, htakes.pos_le, htakes.pos_le_size hsize⟩

/-! ## The next match -/

/-- The match that comes next where the search goes on from `start` and the match before, if there
is one, ended at `last`. -/
inductive Next (text : Array Char) (r : Regex) (start : Nat) (last : Option Nat) :
    Option Match → Prop
  | found {found : Option Match} : Leftmost text r start found →
    (∀ m, found = some m → m.start = m.stop → last ≠ some m.stop) → Next text r start last found
  /-- An empty match right where the one before ended is passed over. -/
  | passed {m : Match} {found : Option Match} : Leftmost text r start (some m) →
    m.start = m.stop → last = some m.stop → Leftmost text r (start + 1) found →
    Next text r start last found

theorem Next.unique {found' : Option Match} (h : Next text r start last found)
    (h' : Next text r start last found') : found = found' := by
  cases h with
  | found hfound hnot =>
    cases h' with
    | found hfound' => exact hfound.unique hfound'
    | passed hm hempty hlast => exact absurd hlast (hnot _ (hfound.unique hm) hempty)
  | passed hm hempty hlast hfound =>
    cases h' with
    | found hfound' hnot => exact absurd hlast (hnot _ (hfound'.unique hm) hempty)
    | passed _ _ _ hfound' => exact hfound.unique hfound'

theorem Next.span (h : Next text r start last (some m)) :
    start ≤ m.start ∧ m.start ≤ m.stop ∧ m.stop ≤ text.size := by
  cases h with
  | found hm => exact hm.span
  | passed _ _ _ hm =>
    have := hm.span
    omega

theorem Next.lt_stop (h : Next text r start (some start) (some m)) : start < m.stop := by
  have hspan := h.span
  cases h with
  | found _ hnot =>
    by_contra hle
    refine hnot m rfl (by omega) ?_
    rw [Option.some.injEq]
    omega
  | passed _ _ _ hm =>
    have := hm.span
    omega

/-! ## All of them -/

/-- The matches that are found one after the other from `start` on. -/
inductive Succession (text : Array Char) (r : Regex) : Nat → Option Nat → List Match → Prop
  | done {start : Nat} {last : Option Nat} : Next text r start last none →
    Succession text r start last []
  | found {start : Nat} {last : Option Nat} {m : Match} {ms : List Match} :
    Next text r start last (some m) → Succession text r m.stop (some m.stop) ms →
    Succession text r start last (m :: ms)

theorem Succession.unique {ms' : List Match} (h : Succession text r start last ms)
    (h' : Succession text r start last ms') : ms = ms' := by
  induction h generalizing ms' with
  | done hnone =>
    cases h' with
    | done => rfl
    | found hm => cases hnone.unique hm
  | found hm _ ih =>
    cases h' with
    | done hnone => cases hm.unique hnone
    | found hm' hrest =>
      obtain rfl := Option.some.inj (hm.unique hm')
      rw [ih hrest]

/-- The matches follow each other in the text. -/
def Follow (size : Nat) : Nat → List Match → Prop
  | _, [] => True
  | pos, m :: ms => pos ≤ m.start ∧ m.start ≤ m.stop ∧ m.stop ≤ size ∧ Follow size m.stop ms

theorem Succession.follow (h : Succession text r start last ms) : Follow text.size start ms := by
  induction h with
  | done => trivial
  | found hm _ ih =>
    obtain ⟨hle, hspan, hsize⟩ := hm.span
    exact ⟨hle, hspan, hsize, ih⟩

theorem Follow.take {size pos : Nat} (h : Follow size pos ms) (k : Nat) :
    Follow size pos (ms.take k) := by
  induction ms generalizing pos k with
  | nil =>
    rw [List.take_nil]
    trivial
  | cons m ms ih =>
    cases k with
    | zero => trivial
    | succ k =>
      obtain ⟨hle, hspan, hsize, hrest⟩ := h
      exact ⟨hle, hspan, hsize, ih hrest k⟩

theorem Succession.lt_stop (h : Succession text r start (some start) ms) :
    ∀ m ∈ ms, start < m.stop := by
  generalize hlast : some start = last at h
  induction h with
  | done => nofun
  | found hm _ ih =>
    subst hlast
    have hlt := hm.lt_stop
    intro m' hm'
    rcases List.mem_cons.mp hm' with rfl | hm'
    · exact hlt
    · exact Nat.lt_trans hlt (ih rfl m' hm')

theorem Succession.stop_lt (h : Succession text r start last ms) :
    ms.Pairwise fun m m' => m.stop < m'.stop := by
  induction h with
  | done => exact .nil
  | found _ hrest ih => exact .cons hrest.lt_stop ih

/-- The steps that are left for the search: two for each position, of which one is for an empty
match right where the one before ended. -/
def stepsLeft (text : Array Char) (start : Nat) (last : Option Nat) : Nat :=
  2 * (text.size + 1 - start) + if last = some start then 0 else 1

theorem stepsLeft_next (h : Next text r start last (some m)) :
    stepsLeft text m.stop (some m.stop) < stepsLeft text start last := by
  have hspan := h.span
  unfold stepsLeft
  rw [if_pos rfl]
  by_cases hlast : last = some start
  · subst hlast
    have hlt := h.lt_stop
    rw [if_pos rfl]
    omega
  · rw [if_neg hlast]
    omega

/-- The match that a program finds next. -/
def nextFrom (program : Array Instr) (text : Array Char) (start : Nat) (last : Option Nat) :
    Option Match :=
  match searchFrom program text start with
  | some m =>
    if m.start = m.stop ∧ last = some m.stop then searchFrom program text (start + 1) else some m
  | none => none

theorem next_nextFrom (text : Array Char) (r : Regex) (start : Nat) (last : Option Nat) :
    Next text r start last (nextFrom r.compile text start last) := by
  have hfirst := leftmost_searchFrom text r start
  unfold nextFrom
  cases hsearch : searchFrom r.compile text start with
  | none =>
    rw [hsearch] at hfirst
    exact .found hfirst nofun
  | some m =>
    rw [hsearch] at hfirst
    dsimp only
    split
    · next hempty => exact .passed hfirst hempty.1 hempty.2 (leftmost_searchFrom text r (start + 1))
    · next hnot =>
      refine .found hfirst fun m' hm' hempty hlast => ?_
      obtain rfl := Option.some.inj hm'
      exact hnot ⟨hempty, hlast⟩

theorem matchesFrom_succ (program : Array Instr) (text : Array Char) (fuel start : Nat)
    (last : Option Nat) : matchesFrom program text (fuel + 1) start last =
      match nextFrom program text start last with
      | none => []
      | some m => m :: matchesFrom program text fuel m.stop (some m.stop) := rfl

theorem succession_matchesFrom (fuel start : Nat) (last : Option Nat)
    (hfuel : stepsLeft text start last ≤ fuel) :
    Succession text r start last (matchesFrom r.compile text fuel start last) := by
  induction fuel generalizing start last with
  | zero =>
    -- there is no position left to search from
    have hnext := next_nextFrom text r start last
    cases hfound : nextFrom r.compile text start last with
    | none => exact .done (hfound ▸ hnext)
    | some m =>
      have hless := stepsLeft_next (hfound ▸ hnext)
      omega
  | succ fuel ih =>
    have hnext := next_nextFrom text r start last
    rw [matchesFrom_succ]
    cases hfound : nextFrom r.compile text start last with
    | none => exact .done (hfound ▸ hnext)
    | some m =>
      rw [hfound] at hnext
      have hless := stepsLeft_next hnext
      exact .found hnext (ih m.stop (some m.stop) (by omega))

end Regex

/-- The matches of a pattern are all that are found one after the other from the start of the text
on. -/
theorem Pattern.succession_matchesIn (p : Pattern) (text : List Char) :
    Regex.Succession text.toArray p.regex 0 none (p.matchesIn text) := by
  unfold matchesIn allMatches
  rw [p.program_eq]
  refine Regex.succession_matchesFrom _ 0 none ?_
  rw [Regex.stepsLeft, if_neg (Option.some_ne_none 0).symm]
  omega

end Amend
