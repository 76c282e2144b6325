import Amend.Pattern.Basic
import Amend.Proofs.Pattern.Exploration

/-!
# Successive matches

For an expression that matches no empty text, the successive matches are found by a scan from the
left (`Pattern.scan_matchesIn`): each starts at the first position from the end of the one before
where there is a match, and no match starts after the last. Whether there is a match at all is read
off the expression for any expression (`Pattern.matchesIn_eq_nil_iff`).
-/

set_option autoImplicit false

namespace Amend

open Search

variable {text : Array Char} {r : Regex} {m : Match} {ms : List Match} {start : Nat}

namespace Regex

theorem succeeds_iff (r : Regex) (i : Nat) :
    Succeeds r.compile text i ↔ ∃ b, Takes text r ⟨i, []⟩ b := by
  constructor
  · rintro ⟨n, t, hr, hacc⟩
    exact ⟨_, ((accepts_iff r ⟨i, []⟩ t).mp ⟨⟨n, hr⟩, hacc⟩).1⟩
  · rintro ⟨b, hb⟩
    obtain ⟨⟨n, hr⟩, hacc⟩ := (accepts_iff r ⟨i, []⟩ (b.at r.size)).mpr ⟨hb, rfl⟩
    exact ⟨n, _, hr, hacc⟩

theorem searchFrom_eq_some (h : searchFrom r.compile text start = some m) :
    start ≤ m.start ∧ m.start ≤ text.size ∧ Takes text r ⟨m.start, []⟩ ⟨m.stop, m.saved⟩ ∧
      ∀ i, start ≤ i → i < m.start → ∀ b, ¬ Takes text r ⟨i, []⟩ b := by
  unfold searchFrom at h
  rcases Nat.lt_or_ge (text.size + 1) start with hlt | hle
  · rw [Nat.sub_eq_zero_of_le (Nat.le_of_lt hlt)] at h
    cases h
  have hspec := firstFrom_spec (explored_none r.compile text) start (text.size + 1 - start)
    (by omega)
  rw [h] at hspec
  obtain ⟨hm, hsize, ⟨n, pc, hr, hacc⟩, hskip⟩ := hspec
  refine ⟨hm, hsize, ((accepts_iff r ⟨m.start, []⟩ ⟨pc, m.stop, m.saved⟩).mp ⟨⟨n, hr⟩, hacc⟩).1, ?_⟩
  intro i hi hlt b hb
  exact hskip i hi hlt ((succeeds_iff r i).mpr ⟨b, hb⟩)

theorem searchFrom_eq_none (h : searchFrom r.compile text start = none) :
    ∀ i, start ≤ i → i ≤ text.size → ∀ b, ¬ Takes text r ⟨i, []⟩ b := by
  intro i hi hsize b hb
  unfold searchFrom at h
  have hspec := firstFrom_spec (explored_none r.compile text) start (text.size + 1 - start)
    (by omega)
  rw [h] at hspec
  exact hspec i hi (by omega) ((succeeds_iff r i).mpr ⟨b, hb⟩)

/-- A scan from the left for matches that do not overlap. -/
inductive Scan (text : Array Char) (r : Regex) : Nat → List Match → Prop
  | done {start : Nat} :
    (∀ i, start ≤ i → i ≤ text.size → ∀ b, ¬ Takes text r ⟨i, []⟩ b) → Scan text r start []
  | found {start : Nat} {m : Match} {ms : List Match} : start ≤ m.start → m.start ≤ text.size →
    Takes text r ⟨m.start, []⟩ ⟨m.stop, m.saved⟩ →
    (∀ i, start ≤ i → i < m.start → ∀ b, ¬ Takes text r ⟨i, []⟩ b) →
    Scan text r m.stop ms → Scan text r start (m :: ms)

theorem Scan.takes_of_mem (h : Scan text r start ms) (hm : m ∈ ms) :
    m.start ≤ text.size ∧ Takes text r ⟨m.start, []⟩ ⟨m.stop, m.saved⟩ := by
  induction h with
  | done => cases hm
  | found _ hsize htakes _ _ ih =>
    rcases List.mem_cons.mp hm with rfl | hm
    · exact ⟨hsize, htakes⟩
    · exact ih hm

/-- A scan goes on from the next position where no match begins. -/
theorem Scan.succ (h : Scan text r start ms) (hnone : ∀ b, ¬ Takes text r ⟨start, []⟩ b) :
    Scan text r (start + 1) ms := by
  cases h with
  | done hall => exact .done fun i hi => hall i (by omega)
  | @found _ m _ hle hsize htakes hskip hrest =>
    have hlt : start < m.start := by
      refine Nat.lt_of_le_of_ne hle fun heq => ?_
      rw [← heq] at htakes
      exact hnone _ htakes
    exact .found hlt hsize htakes (fun i hi => hskip i (by omega)) hrest

/-- A scan finds a match at its start where there is one. -/
theorem Scan.start_eq (h : Scan text r start ms) (hstart : start ≤ text.size)
    (hsome : ∃ b, Takes text r ⟨start, []⟩ b) :
    ∃ m ms', ms = m :: ms' ∧ m.start = start ∧ Takes text r ⟨m.start, []⟩ ⟨m.stop, m.saved⟩ ∧
      Scan text r m.stop ms' := by
  obtain ⟨b, hb⟩ := hsome
  cases h with
  | done hall => exact absurd hb (hall start (Nat.le_refl _) hstart b)
  | @found _ m ms hle _ htakes hskip hrest =>
    refine ⟨m, ms, rfl, ?_, htakes, hrest⟩
    by_contra hne
    exact hskip start (Nat.le_refl _) (by omega) b hb

theorem scan_matchesFrom (hr : NeverEmpty text r) (fuel start : Nat) (last : Option Nat)
    (hfuel : text.size < start + fuel) :
    Scan text r start (matchesFrom r.compile text fuel start last) := by
  induction fuel generalizing start last with
  | zero => exact .done fun i hi hsize => by omega
  | succ fuel ih =>
    rw [matchesFrom]
    cases hsearch : searchFrom r.compile text start with
    | none => exact .done (searchFrom_eq_none hsearch)
    | some m =>
      obtain ⟨hm, hsize, htakes, hskip⟩ := searchFrom_eq_some hsearch
      have hlt : m.start < m.stop := hr _ _ htakes
      dsimp only
      rw [if_neg fun h => Nat.ne_of_lt hlt h.1]
      exact .found hm hsize htakes hskip (ih m.stop (some m.stop) (by omega))

end Regex

theorem Pattern.scan_matchesIn (p : Pattern) (text : List Char)
    (h : Regex.NeverEmpty text.toArray p.regex) :
    Regex.Scan text.toArray p.regex 0 (p.matchesIn text) := by
  unfold matchesIn allMatches
  rw [p.program_eq]
  exact Regex.scan_matchesFrom h _ 0 none (by omega)

/-- Nothing is found exactly where nothing is to be found, also by an expression that matches the
empty text. -/
theorem Pattern.matchesIn_eq_nil_iff {p : Pattern} {text : List Char} :
    p.matchesIn text = [] ↔
      ∀ i ≤ text.length, ∀ b, ¬ Regex.Takes text.toArray p.regex ⟨i, []⟩ b := by
  unfold matchesIn allMatches
  rw [p.program_eq, matchesFrom]
  cases hsearch : searchFrom p.regex.compile text.toArray 0 with
  | none =>
    refine iff_of_true rfl fun i hi b => ?_
    exact Regex.searchFrom_eq_none hsearch i (Nat.zero_le i) (by simpa using hi) b
  | some m =>
    obtain ⟨-, hsize, htakes, -⟩ := Regex.searchFrom_eq_some hsearch
    -- the first match has none before it, so it counts even if it is empty
    dsimp only
    rw [if_neg fun h => Option.some_ne_none _ h.2.symm]
    exact iff_of_false (List.cons_ne_nil _ _) fun h => h _ (by simpa using hsize) _ htakes

end Amend
