import Amend.Proofs.Pattern.Ahead
import Amend.Proofs.Rule.Deletion
import Amend.Proofs.Rule.PlainText

/-!
# Seams of a scoped deletion

A scoped deletion within its bound removes all matches but the last one, and what stood between them
is joined. It does nothing to the joined text unless another match has come about there, which lies
across a seam (`exists_seam`). Where none has, the match that was kept is the only one that is
found. `Rule.scopedDeletion_again` says so for all such deletions.
-/

set_option autoImplicit false

namespace Amend

open Regex Search

variable {text : List Char} {regex : Regex} {pos start : Nat} {last : Option Nat} {ms : List Match}

/-- Where the last of some matches ends, which follow each other from a position on. -/
def endOf : Nat → List Match → Nat
  | pos, [] => pos
  | _, m :: ms => endOf m.stop ms

theorem remainder_eq_drop (text : List Char) (pos : Nat) (ms : List Match) :
    remainder text pos ms = text.drop (endOf pos ms) := by
  induction ms generalizing pos with
  | nil => rfl
  | cons m ms ih => exact ih m.stop

theorem Regex.Follow.endOf_le (h : Follow text.length pos ms) (hpos : pos ≤ text.length) :
    endOf pos ms ≤ text.length := by
  induction ms generalizing pos with
  | nil => exact hpos
  | cons m ms ih =>
    obtain ⟨-, -, hstop, hrest⟩ := h
    exact ih hrest hstop

theorem weave_nothing (rest : List Char) (gaps : List (List Char)) (ms : List Match)
    (h : gaps.length = ms.length) :
    weave rest gaps (ms.map fun _ => []) = gaps.flatten ++ rest := by
  induction ms generalizing gaps with
  | nil =>
    obtain rfl := List.length_eq_zero_iff.mp h
    rfl
  | cons m ms ih =>
    cases gaps with
    | nil => cases h
    | cons gap gaps =>
      rw [List.map_cons, weave, ih gaps (Nat.succ.inj h), List.nil_append, List.flatten_cons,
        List.append_assoc]

/-- The search goes on after some of the matches. -/
theorem Regex.Succession.append_right {ms' : List Match}
    (h : Succession text.toArray regex start last (ms ++ ms')) :
    ∃ last', Succession text.toArray regex (endOf start ms) last' ms' := by
  induction ms generalizing start last with
  | nil => exact ⟨last, h⟩
  | cons m ms ih =>
    cases h with
    | found _ hrest => exact ih hrest

/-- A match that starts between removed ones where these are joined ends beyond the next seam. -/
theorem exists_seam {removed later : List Match} (before : List Char) {rest : List Char} {i : Nat}
    {b : Point} (hfree : regex.assertionFree = true)
    (h : Scan text.toArray regex pos (removed ++ later))
    (hb : Takes (before ++ ((gaps text pos removed).flatten ++ rest)).toArray regex ⟨i, []⟩ b)
    (hle : before.length ≤ i)
    (hlt : i < before.length + (gaps text pos removed).flatten.length) :
    ∃ j ≤ removed.length, i < before.length + ((gaps text pos removed).take j).flatten.length ∧
      before.length + ((gaps text pos removed).take j).flatten.length < b.pos := by
  induction removed generalizing pos before with
  | nil =>
    simp only [gaps, List.flatten_nil, List.length_nil] at hlt
    omega
  | cons m removed ih =>
    cases h with
    | found hm hsize htakes hskip hrest =>
      have hsize : m.start ≤ text.length := by simpa using hsize
      have hgap : (slice text pos m.start).length = m.start - pos := length_slice hsize
      rw [gaps, List.flatten_cons] at hb hlt
      rcases Nat.lt_or_ge i (before.length + (m.start - pos)) with hi | hi
      · refine ⟨1, Nat.succ_le_succ (Nat.zero_le _), ?_, ?_⟩
        · simpa [gaps, hgap] using hi
        · -- else it lies in the gap, and so it was there before anything was removed
          by_contra hend
          simp only [gaps, List.take_succ_cons, List.take_zero, List.flatten_cons,
            List.flatten_nil, List.append_nil, hgap, Nat.not_lt] at hend
          refine hskip (pos + (i - before.length)) (by omega) (by omega) _
            (hb.transfer hfree (fun k hk => ?_) []).choose_spec
          dsimp only at hk ⊢
          rw [List.getElem?_toArray, List.getElem?_toArray,
            List.getElem?_append_right (by omega), List.append_assoc,
            List.getElem?_append_left (by omega), slice, List.getElem?_take_of_lt (by omega),
            List.getElem?_drop]
          congr 1
          omega
      · rw [List.append_assoc, ← List.append_assoc before] at hb
        rw [List.length_append] at hlt
        have hlength : (before ++ slice text pos m.start).length =
            before.length + (m.start - pos) := by rw [List.length_append, hgap]
        obtain ⟨j, hj, hseam, hend⟩ := ih _ hrest hb (by omega) (by omega)
        refine ⟨j + 1, Nat.succ_le_succ hj, ?_, ?_⟩
        · rw [gaps, List.take_succ_cons, List.flatten_cons, List.length_append]
          omega
        · rw [gaps, List.take_succ_cons, List.flatten_cons, List.length_append]
          omega

theorem Regex.not_assert_of_assertionFree (hfree : regex.assertionFree = true) (s t : Nat)
    (x : Assertion) (next : Nat) : .assert x next ∉ regex.code s t := by
  induction regex generalizing s t with
  | empty | set => simp [code]
  | assert => cases hfree
  | group i r ih => simpa [code] using ih hfree (s + 1) (s + 1 + r.size)
  | seq r₁ r₂ ih₁ ih₂ =>
    rw [code, List.mem_append, not_or]
    exact ⟨ih₁ (Bool.and_elim_left hfree) _ _, ih₂ (Bool.and_elim_right hfree) _ _⟩
  | alt r₁ r₂ ih₁ ih₂ =>
    simp only [code, List.mem_cons, List.mem_append, not_or]
    exact ⟨by simp, ih₁ (Bool.and_elim_left hfree) _ _, ih₂ (Bool.and_elim_right hfree) _ _⟩
  | plus greedy r ih =>
    rw [code, List.mem_append, not_or]
    refine ⟨ih hfree _ _, ?_⟩
    cases greedy <;> simp

theorem Pattern.not_assert_of_assertionFree {p : Pattern} (hfree : p.regex.assertionFree = true)
    (x : Assertion) (next : Nat) : .assert x next ∉ p.program := by
  rw [p.program_eq, Regex.compile, List.mem_toArray, List.mem_append, not_or]
  exact ⟨Regex.not_assert_of_assertionFree hfree _ _ x next, by simp⟩

/-- If no match starts in what is put in the place of a text up to the end of some matches, the
other matches are found as they were. -/
theorem Pattern.forall₂_shift_joined {p : Pattern} {removed later : List Match}
    (hms : p.matchesIn text = removed ++ later) (joined : List Char) :
    let out := joined ++ text.drop (endOf 0 removed)
    NeverEmpty text.toArray p.regex → NeverEmpty out.toArray p.regex →
    (∀ x next, .assert x next ∈ p.program → assertionAt text.toArray (endOf 0 removed) x =
      assertionAt out.toArray joined.length x) →
    (∀ i < joined.length, ∀ b, ¬ Takes out.toArray p.regex ⟨i, []⟩ b) →
    List.Forall₂ (Match.Shift (endOf 0 removed) joined.length) later (p.matchesIn out) := by
  intro out hne hne' hassert hnone
  have hsuccession := p.succession_matchesIn text
  rw [hms] at hsuccession
  have hend : endOf 0 removed ≤ text.length := by
    have hfollow : Follow text.length 0 (removed ++ later) := hsuccession.follow
    have htake := hfollow.take removed.length
    rw [List.take_left] at htake
    exact htake.endOf_le (Nat.zero_le _)
  obtain ⟨last, hlater⟩ := hsuccession.append_right
  have hout := (p.succession_matchesIn out).of_not_takes (k := joined.length) hne'
    (by simp only [out, List.size_toArray, List.length_append]; omega)
    fun i _ hi => hnone i (by omega)
  have halike : Alike p.regex.compile text.toArray (endOf 0 removed) out.toArray joined.length := by
    refine ⟨by simpa using hend, by simp [out], fun n => ?_, ?_⟩
    · rw [List.getElem?_toArray, List.getElem?_toArray, List.getElem?_append_right (by omega),
        Nat.add_sub_cancel_left, List.getElem?_drop]
    · rw [← p.program_eq]
      exact hassert
  exact hlater.forall₂_shift (n := 0) (Nat.zero_add _ ▸ hout) halike hne hne'

theorem dropLast_append_getLast?_toList {α : Type} (xs : List α) :
    xs.dropLast ++ xs.getLast?.toList = xs := by
  induction xs using List.reverseRecOn with
  | nil => rfl
  | append_singleton xs x => simp

namespace Rule

variable {r : Rule} {most : Bound}

/-- A scoped deletion within its bound joins all that stands between the matches but the last, and
what comes after. -/
theorem apply_of_within (hstrategy : r.strategy = .scopedDeletion most)
    (hwithin : (r.pattern.matchesIn text).length ≤ most.count + 1) :
    let removed := (r.pattern.matchesIn text).dropLast
    r.apply text =
      ((gaps text 0 removed).flatten ++ text.drop (endOf 0 removed), removed.length) := by
  intro removed
  have hlimit : r.limitIn text = (r.pattern.matchesIn text).length - 1 := by
    rw [← count_apply_eq, count_apply hstrategy]
    omega
  have hremoved : (r.pattern.matchesIn text).take (r.limitIn text) = removed := by
    rw [hlimit, ← List.dropLast_eq_take]
  have hnew : r.replacing text = fun _ => [] := by
    funext m
    rw [replacing, hstrategy]
    rfl
  refine Prod.ext ?_ ?_
  · rw [text_apply_eq, hremoved, hnew]
    dsimp only
    rw [weave_nothing _ _ _ (length_gaps ..), remainder_eq_drop]
  · rw [count_apply_eq, hlimit]
    exact List.length_dropLast.symm

theorem apply_eq_self_iff (hstrategy : r.strategy = .scopedDeletion most) (text : List Char) :
    r.apply text = (text, 0) ↔ (r.pattern.matchesIn text).length ≤ 1 := by
  have hcount := count_apply hstrategy text
  have hpos := most.count_pos
  constructor
  · intro h
    rw [h] at hcount
    dsimp only at hcount
    omega
  · intro h
    exact apply_of_count_eq_zero (by omega)

/-- A scoped deletion within its bound joins the gaps between the matches that it removes with what
comes after these. It does nothing more exactly if there is one match at most in the joined text.
This is so if no match starts there before the gap of the last one, and then this is the one that is
found. For a pattern without assertions that matches no empty text, only a match across a seam can
make it fire again. -/
theorem scopedDeletion_again (r : Rule) (most : Bound)
    (hstrategy : r.strategy = .scopedDeletion most) (text : List Char)
    (hwithin : (r.pattern.matchesIn text).length ≤ most.count + 1) :
    let p := r.pattern
    let removed := (p.matchesIn text).dropLast
    let pieces := gaps text 0 removed
    let joined := pieces.flatten
    let out := joined ++ text.drop (endOf 0 removed)
    r.apply text = (out, removed.length) ∧
    (r.apply out = (out, 0) ↔ (p.matchesIn out).length ≤ 1) ∧
    (NeverEmpty text.toArray p.regex → NeverEmpty out.toArray p.regex →
      (∀ x next, .assert x next ∈ p.program → assertionAt text.toArray (endOf 0 removed) x =
        assertionAt out.toArray joined.length x) →
      (∀ i < joined.length, ∀ b, ¬ Takes out.toArray p.regex ⟨i, []⟩ b) →
      List.Forall₂ (Match.Shift (endOf 0 removed) joined.length)
        (p.matchesIn text).getLast?.toList (p.matchesIn out) ∧
      r.apply out = (out, 0)) ∧
    (p.regex.assertionFree = true → p.matchesIn [] = [] → r.apply out ≠ (out, 0) →
      ∃ i b, Takes out.toArray p.regex ⟨i, []⟩ b ∧ ∃ j ≤ removed.length,
        i < (pieces.take j).flatten.length ∧ (pieces.take j).flatten.length < b.pos) := by
  intro p removed pieces joined out
  have hms : p.matchesIn text = removed ++ (p.matchesIn text).getLast?.toList :=
    (dropLast_append_getLast?_toList _).symm
  have hself := apply_eq_self_iff hstrategy out
  have hquiet : NeverEmpty text.toArray p.regex → NeverEmpty out.toArray p.regex →
      (∀ x next, .assert x next ∈ p.program → assertionAt text.toArray (endOf 0 removed) x =
        assertionAt out.toArray joined.length x) →
      (∀ i < joined.length, ∀ b, ¬ Takes out.toArray p.regex ⟨i, []⟩ b) →
      List.Forall₂ (Match.Shift (endOf 0 removed) joined.length)
        (p.matchesIn text).getLast?.toList (p.matchesIn out) ∧
      r.apply out = (out, 0) := by
    intro hne hne' hassert hnone
    have hkept := p.forall₂_shift_joined hms joined hne hne' hassert hnone
    refine ⟨hkept, hself.mpr ?_⟩
    rw [← hkept.length_eq]
    cases (p.matchesIn text).getLast? <;> simp
  refine ⟨apply_of_within hstrategy hwithin, hself, hquiet, fun hfree hempty hfires => ?_⟩
  by_contra hseam
  have hne := Pattern.neverEmpty_of_matchesIn_nil_eq_nil hfree hempty
  have hscan := p.scan_matchesIn text (hne _)
  rw [hms] at hscan
  refine hfires (hquiet (hne _) (hne _) (fun x next hx => ?_) fun i hi b hb => ?_).2
  · exact absurd hx (Pattern.not_assert_of_assertionFree hfree x next)
  · obtain ⟨j, hj, hlt, hend⟩ := exists_seam [] hfree hscan hb (Nat.zero_le _)
      (by rwa [List.length_nil, Nat.zero_add])
    simp only [List.length_nil, Nat.zero_add] at hlt hend
    exact hseam ⟨i, b, hb, j, hj, hlt, hend⟩

/-- The definition of a rule that removes two `ab` at a time. -/
def removeAbDefinition : RuleDefinition where
  id := "ab"
  description := none
  pattern := "ab"
  exact := false
  replace := none
  wrap := none
  delete := true
  maxApplications := some 2

theorem toRule_removeAbDefinition : removeAbDefinition.toRule = .ok removeAb := by
  have hread : Pattern.ofString? (Pattern.escape "ab") = .ok removeAb.pattern :=
    Pattern.ofString?_escape (by decide)
  have hplain : Pattern.escape "ab" = "ab" :=
    Pattern.escape_eq_self (List.forall_mem_cons.mpr ⟨rfl, List.forall_mem_singleton.mpr rfl⟩)
  rw [hplain] at hread
  refine RuleDefinition.toRule_of_delete ?_ rfl rfl rfl (by decide) ⟨2, Nat.two_pos⟩ rfl
  change Amend.compile "ab" = _
  rw [Amend.compile, hread]
  rfl

/-- What the rule leaves of `aabbab` has a match across the seam, so that it fires again although
both matches were within its bound. -/
theorem removeAb_again : removeAbDefinition.toRule = .ok removeAb ∧
    removeAb.apply "aabbab".toList = ("abab".toList, 1) ∧
    removeAb.apply "abab".toList ≠ ("abab".toList, 0) ∧
    ∃ i b, Takes "abab".toList.toArray removeAb.pattern.regex ⟨i, []⟩ b ∧ i < 1 ∧ 1 < b.pos := by
  have hwithin : (removeAb.pattern.matchesIn "aabbab".toList).length ≤ 2 + 1 := by decide +kernel
  obtain ⟨hfirst, hself, -, hseam⟩ :=
    scopedDeletion_again removeAb ⟨2, Nat.two_pos⟩ rfl "aabbab".toList hwithin
  have hms : removeAb.pattern.matchesIn "aabbab".toList = [⟨1, 3, []⟩, ⟨4, 6, []⟩] := by
    decide +kernel
  have hagain : removeAb.pattern.matchesIn "abab".toList = [⟨0, 2, []⟩, ⟨2, 4, []⟩] := by
    decide +kernel
  rw [hms] at hfirst hself hseam
  change removeAb.apply "abab".toList = _ ↔ (removeAb.pattern.matchesIn "abab".toList).length ≤ 1
    at hself
  rw [hagain] at hself
  have hfires : removeAb.apply "abab".toList ≠ ("abab".toList, 0) := fun h => by
    have := hself.mp h
    simp at this
  obtain ⟨i, b, hb, j, hj, hlt, hend⟩ := hseam rfl (by decide +kernel) hfires
  refine ⟨toRule_removeAbDefinition, hfirst, hfires, i, b, hb, ?_⟩
  have hj : j = 0 ∨ j = 1 := Nat.le_one_iff_eq_zero_or_eq_one.mp hj
  rcases hj with rfl | rfl
  · exact absurd hlt (Nat.not_lt_zero _)
  · exact ⟨hlt, hend⟩

end Rule

end Amend
