import Mathlib.Logic.Function.Iterate
import Amend.Proofs.Pattern.Context
import Amend.Proofs.Rule.Application

/-!
# Scoped deletions again and again

A scoped deletion of a pattern without assertions leaves a match: the characters of the first match
that it keeps stand next to others now, and still match (`matchesIn_apply_ne_nil`). It takes at
least a character away for each match that it removes (`length_apply_add_count_le`). So however
often it is applied, the text comes to have exactly one match, and then stays as it is
(`scopedDeletion_converges`).
-/

set_option autoImplicit false

namespace Amend

open Regex

/-- The edit that removes a match. -/
def Match.removal (m : Match) : Edit :=
  ⟨m.start, m.stop, []⟩

variable {text : List Char} {regex : Regex}

/-- A text that matches are removed from is kept from the end of the last of them on, where the scan
goes on with the other matches. Each match that is removed takes a character away at least. -/
theorem splice_removals {start : Nat} {ms : List Match} (hne : NeverEmpty text.toArray regex)
    (h : Scan text.toArray regex start ms) (hstart : start ≤ text.length) (k : Nat) :
    ∃ kept stop, splice start (text.drop start) ((ms.take k).map Match.removal) =
        kept ++ text.drop stop ∧
      stop ≤ text.length ∧ start + kept.length + (ms.take k).length ≤ stop ∧
      Scan text.toArray regex stop (ms.drop k) := by
  induction h generalizing k with
  | @done start hnone =>
    exact ⟨[], start, by simp [splice], hstart, by simp, by simpa using Scan.done hnone⟩
  | @found start m ms hle hm htakes hskip hscan ih =>
    cases k with
    | zero =>
      exact ⟨[], start, rfl, hstart, by simp, .found hle hm htakes hskip hscan⟩
    | succ k =>
      have hlt : m.start < m.stop := hne _ _ htakes
      have hstop : m.stop ≤ text.length := by simpa using htakes.pos_le_size hm
      obtain ⟨kept, stop, hsplice, hsize, hlength, hrest⟩ := ih hstop k
      have hdrop : (text.drop start).drop (m.stop - start) = text.drop m.stop := by
        rw [List.drop_drop, Nat.add_sub_cancel' (by omega)]
      refine ⟨(text.drop start).take (m.start - start) ++ kept, stop, ?_, hsize, ?_, hrest⟩
      · rw [List.take_succ_cons, List.map_cons, splice]
        dsimp only [Match.removal]
        rw [hdrop, List.nil_append, List.append_assoc]
        exact congrArg _ hsplice
      · simp only [List.take_succ_cons, List.length_append, List.length_take, List.length_drop,
          List.length_cons] at hlength ⊢
        omega

/-- The first match that is kept is still there. -/
theorem exists_takes_of_kept (kept : List Char) {stop : Nat} {m : Match} {ms : List Match}
    (hfree : regex.assertionFree = true) (h : Scan text.toArray regex stop (m :: ms)) :
    ∃ i ≤ (kept ++ text.drop stop).length, ∃ b,
      Takes (kept ++ text.drop stop).toArray regex ⟨i, []⟩ b := by
  cases h with
  | found hle hm htakes =>
    have hm : m.start ≤ text.length := by simpa using hm
    have hsame : ∀ i < m.stop - m.start,
        (kept ++ text.drop stop).toArray[kept.length + (m.start - stop) + i]? =
          text.toArray[m.start + i]? := by
      intro i _
      rw [List.getElem?_toArray, List.getElem?_toArray, Nat.add_assoc,
        List.getElem?_append_right (Nat.le_add_right ..), Nat.add_sub_cancel_left,
        List.getElem?_drop, ← Nat.add_assoc, Nat.add_sub_cancel' hle]
    obtain ⟨saved, hkept⟩ := htakes.transfer hfree hsame []
    refine ⟨_, ?_, _, hkept⟩
    simp only [List.length_append, List.length_drop]
    omega

namespace Rule

section
variable {r : Rule} {most : Bound} (hstrategy : r.strategy = .scopedDeletion most)
include hstrategy

theorem edits_of_scopedDeletion (text : List Char) :
    r.edits text = ((r.pattern.matchesIn text).take
      (min most.count ((r.pattern.matchesIn text).length - 1))).map Match.removal := by
  unfold edits
  rw [hstrategy]
  rfl

/-- All matches but the last are removed, as far as the bound allows. -/
theorem count_apply (text : List Char) :
    (r.apply text).2 = min most.count ((r.pattern.matchesIn text).length - 1) := by
  unfold apply
  rw [edits_of_scopedDeletion hstrategy]
  simp only [List.length_map, List.length_take]
  omega

variable (hfree : r.pattern.regex.assertionFree = true) (hempty : r.pattern.matchesIn [] = [])
include hfree hempty

theorem exists_apply_eq (text : List Char) :
    ∃ kept stop, (r.apply text).1 = kept ++ text.drop stop ∧ stop ≤ text.length ∧
      kept.length + (r.apply text).2 ≤ stop ∧
      Scan text.toArray r.pattern.regex stop
        ((r.pattern.matchesIn text).drop (r.apply text).2) := by
  have hne := Pattern.neverEmpty_of_matchesIn_nil_eq_nil hfree hempty text.toArray
  have hscan := r.pattern.scan_matchesIn text hne
  have hcount := count_apply hstrategy text
  obtain ⟨kept, stop, hsplice, hsize, hlength, hrest⟩ :=
    splice_removals hne hscan (Nat.zero_le _) (r.apply text).2
  refine ⟨kept, stop, ?_, hsize, ?_, hrest⟩
  · unfold apply
    rw [edits_of_scopedDeletion hstrategy, ← hcount]
    exact hsplice
  · rw [List.length_take] at hlength
    omega

/-- The text gets shorter by the number of matches that are removed, if not more. -/
theorem length_apply_add_count_le (text : List Char) :
    (r.apply text).1.length + (r.apply text).2 ≤ text.length := by
  obtain ⟨kept, stop, heq, hsize, hlength, -⟩ := exists_apply_eq hstrategy hfree hempty text
  rw [heq, List.length_append, List.length_drop]
  omega

/-- The last match is never removed. -/
theorem matchesIn_apply_ne_nil {text : List Char} (h : r.pattern.matchesIn text ≠ []) :
    r.pattern.matchesIn (r.apply text).1 ≠ [] := by
  obtain ⟨kept, stop, heq, -, -, hrest⟩ := exists_apply_eq hstrategy hfree hempty text
  have hcount := count_apply hstrategy text
  have hpos := List.length_pos_iff.mpr h
  have hkept : (r.pattern.matchesIn text).drop (r.apply text).2 ≠ [] := by
    rw [Ne, List.drop_eq_nil_iff]
    omega
  obtain ⟨m, ms, hms⟩ := List.exists_cons_of_ne_nil hkept
  rw [hms] at hrest
  obtain ⟨i, hi, b, hb⟩ := exists_takes_of_kept kept hfree hrest
  rw [← heq] at hi hb
  exact fun hnil => Pattern.matchesIn_eq_nil_iff.mp hnil i hi b hb

end

/-! ## Again and again -/

/-- The text after the rule was applied `n` times. -/
def applyTimes (r : Rule) (n : Nat) (text : List Char) : List Char :=
  (fun text => (r.apply text).1)^[n] text

theorem applyTimes_succ (r : Rule) (n : Nat) (text : List Char) :
    r.applyTimes (n + 1) text = (r.apply (r.applyTimes n text)).1 :=
  Function.iterate_succ_apply' ..

section
variable {r : Rule} {most : Bound} (hstrategy : r.strategy = .scopedDeletion most)
include hstrategy

theorem count_apply_eq_zero_iff {text : List Char} (h : r.pattern.matchesIn text ≠ []) :
    (r.apply text).2 = 0 ↔ (r.pattern.matchesIn text).length = 1 := by
  have hcount := count_apply hstrategy text
  have hpos := List.length_pos_iff.mpr h
  have hmost := most.count_pos
  omega

variable (hfree : r.pattern.regex.assertionFree = true) (hempty : r.pattern.matchesIn [] = [])
include hfree hempty

theorem matchesIn_applyTimes_ne_nil {text : List Char} (h : r.pattern.matchesIn text ≠ [])
    (n : Nat) : r.pattern.matchesIn (r.applyTimes n text) ≠ [] := by
  induction n with
  | zero => exact h
  | succ n ih =>
    rw [applyTimes_succ]
    exact matchesIn_apply_ne_nil hstrategy hfree hempty ih

/-- As long as something is removed, the text has become shorter each time. -/
theorem length_applyTimes_add_le {text : List Char} {n : Nat}
    (h : (r.apply (r.applyTimes n text)).2 ≠ 0) :
    (r.applyTimes n text).length + n ≤ text.length := by
  induction n with
  | zero => exact Nat.le_refl _
  | succ n ih =>
    rw [applyTimes_succ] at h ⊢
    have hbefore : (r.apply (r.applyTimes n text)).2 ≠ 0 := by
      intro hzero
      rw [apply_of_count_eq_zero hzero] at h
      exact h hzero
    have hshorter := length_apply_add_count_le hstrategy hfree hempty (r.applyTimes n text)
    have hlength := ih hbefore
    omega

end

/-- A scoped deletion of a pattern without assertions that matches no empty text always leaves a
match. It makes a text shorter that has more than one, so that a text has exactly one in the end and
is not changed any more. -/
theorem scopedDeletion_converges (r : Rule) (most : Bound)
    (hstrategy : r.strategy = .scopedDeletion most)
    (hfree : r.pattern.regex.assertionFree = true) (hempty : r.pattern.matchesIn [] = [])
    (text : List Char) (hmatch : r.pattern.matchesIn text ≠ []) :
    (∀ n, let reached := r.applyTimes n text
      1 ≤ (r.pattern.matchesIn reached).length ∧
      ((r.apply reached).2 ≠ 0 → (r.apply reached).1.length < reached.length) ∧
      ((r.apply reached).2 = 0 ↔ (r.pattern.matchesIn reached).length = 1)) ∧
    ∀ n ≥ text.length, let reached := r.applyTimes n text
      (r.pattern.matchesIn reached).length = 1 ∧ r.apply reached = (reached, 0) := by
  have hleft := matchesIn_applyTimes_ne_nil hstrategy hfree hempty hmatch
  refine ⟨fun n => ⟨List.length_pos_iff.mpr (hleft n), fun hcount => ?_,
    count_apply_eq_zero_iff hstrategy (hleft n)⟩, fun n hn => ?_⟩
  · have hshorter := length_apply_add_count_le hstrategy hfree hempty (r.applyTimes n text)
    omega
  · have hzero : (r.apply (r.applyTimes n text)).2 = 0 := by
      by_contra hcount
      have hlength := length_applyTimes_add_le hstrategy hfree hempty hcount
      have hnil : r.applyTimes n text = [] := List.length_eq_zero_iff.mp (by omega)
      exact hleft n (hnil ▸ hempty)
    exact ⟨(count_apply_eq_zero_iff hstrategy (hleft n)).mp hzero, apply_of_count_eq_zero hzero⟩

/-- A rule that removes two `ab` at a time. -/
def removeAb : Rule :=
  let regex : Regex := .seq (.set (· == 'a')) (.set (· == 'b'))
  ⟨"ab", none, { source := "ab", regex, names := [] }, .scopedDeletion ⟨2, Nat.two_pos⟩⟩

/-- The number of matches in `aabbab` does not go down at first: what is removed brings another
match about. -/
theorem removeAb_converges :
    (removeAb.pattern.matchesIn "aabbab".toList).length = 2 ∧
      removeAb.applyTimes 1 "aabbab".toList = "abab".toList ∧
      (removeAb.pattern.matchesIn "abab".toList).length = 2 ∧
      ∀ n ≥ 6, (removeAb.pattern.matchesIn (removeAb.applyTimes n "aabbab".toList)).length = 1 ∧
        removeAb.apply (removeAb.applyTimes n "aabbab".toList) =
          (removeAb.applyTimes n "aabbab".toList, 0) := by
  have hmatch : removeAb.pattern.matchesIn "aabbab".toList ≠ [] := by decide +kernel
  exact ⟨by decide +kernel, by decide +kernel, by decide +kernel,
    (scopedDeletion_converges removeAb ⟨2, Nat.two_pos⟩ rfl rfl (by decide +kernel) _ hmatch).2⟩

end Rule

end Amend
