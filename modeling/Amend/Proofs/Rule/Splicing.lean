import Amend.Proofs.Pattern.Place
import Amend.Proofs.Pattern.Succession
import Amend.Proofs.Rule.Application

/-!
# What a rule does to a text

A text is cut into the matches of a pattern, the gaps before them and a rest (`weave_matched`). A
rule puts something else in the place of the first matches and keeps all gaps and the rest
(`Rule.apply_replaces_first`). It does so in two passes, of which the first counts the matches and
the second replaces as many of them as the rule allows (`Rule.apply_eq_applyCounted`).
-/

set_option autoImplicit false

namespace Amend

open Regex (Follow Succession)

/-! ## Gaps -/

/-- The gaps before matches that follow each other from a position on. -/
def gaps (text : List Char) : Nat → List Match → List (List Char)
  | _, [] => []
  | pos, m :: ms => slice text pos m.start :: gaps text m.stop ms

/-- What comes after matches that follow each other from a position on. -/
def remainder (text : List Char) : Nat → List Match → List Char
  | pos, [] => text.drop pos
  | _, m :: ms => remainder text m.stop ms

/-- The text of a match. -/
def Match.matched (text : List Char) (m : Match) : List Char :=
  slice text m.start m.stop

/-- Pieces with a gap before each, and a rest. -/
def weave (rest : List Char) : List (List Char) → List (List Char) → List Char
  | gap :: gaps, piece :: pieces => gap ++ (piece ++ weave rest gaps pieces)
  | _, _ => rest

/-- The edit that puts `new` in the place of a match. -/
def Match.edit (new : Match → List Char) (m : Match) : Edit :=
  ⟨m.start, m.stop, new m⟩

section
variable {text : List Char} {size pos : Nat} {ms : List Match}

theorem length_gaps (text : List Char) (pos : Nat) (ms : List Match) :
    (gaps text pos ms).length = ms.length := by
  induction ms generalizing pos with
  | nil => rfl
  | cons m ms ih => rw [gaps, List.length_cons, List.length_cons, ih]

theorem weave_matched (h : Follow size pos ms) :
    weave (remainder text pos ms) (gaps text pos ms) (ms.map (·.matched text)) =
      text.drop pos := by
  induction ms generalizing pos with
  | nil => rfl
  | cons m ms ih =>
    obtain ⟨hle, hspan, -, hrest⟩ := h
    rw [gaps, List.map_cons, weave, remainder, ih hrest, Match.matched,
      slice_append_drop text hspan, slice_append_drop text hle]

/-- Edits of matches keep the gaps before these and what comes after them. -/
theorem splice_eq_weave (new : Match → List Char) (h : Follow size pos ms) :
    splice pos (text.drop pos) (ms.map (·.edit new)) =
      weave (remainder text pos ms) (gaps text pos ms) (ms.map new) := by
  induction ms generalizing pos with
  | nil => rfl
  | cons m ms ih =>
    obtain ⟨hle, hspan, -, hrest⟩ := h
    have hdrop : (text.drop pos).drop (m.stop - pos) = text.drop m.stop := by
      rw [List.drop_drop, Nat.add_sub_cancel' (by omega)]
    rw [List.map_cons, splice, Match.edit, hdrop, ih hrest]
    rfl

end

/-! ## Replacing the first matches -/

/-- The text with the first `most` matches replaced, or with all of them if `most` is zero: it is
copied up to each match in turn, and as a whole after the last one that is replaced. -/
def Pattern.replaceFirst (p : Pattern) (text : List Char) (most : Nat)
    (new : Match → List Char) : List Char :=
  go 0 0 (p.matchesIn text)
where
  /-- The text from position `copied` on, after `done` matches were replaced. -/
  go (copied done : Nat) : List Match → List Char
    | [] => text.drop copied
    | m :: ms => slice text copied m.start ++ (new m ++
        if 0 < most ∧ most ≤ done + 1 then text.drop m.stop else go m.stop (done + 1) ms)

theorem Pattern.replaceFirst_go (text : List Char) (new : Match → List Char) {most : Nat}
    {ms : List Match} {done : Nat} (hdone : done < most) (copied : Nat) :
    replaceFirst.go text most new copied done ms =
      weave (remainder text copied (ms.take (most - done)))
        (gaps text copied (ms.take (most - done))) ((ms.take (most - done)).map new) := by
  induction ms generalizing copied done with
  | nil =>
    rw [List.take_nil]
    rfl
  | cons m ms ih =>
    obtain ⟨k, hk⟩ : ∃ k, most - done = k + 1 := ⟨most - done - 1, by omega⟩
    rw [replaceFirst.go, hk, List.take_succ_cons, gaps, List.map_cons, weave, remainder]
    by_cases hlast : most ≤ done + 1
    · obtain rfl : k = 0 := by omega
      rw [if_pos ⟨by omega, hlast⟩]
      rfl
    · rw [if_neg fun h => hlast h.2, ih (by omega), show most - (done + 1) = k by omega]

namespace Rule

/-- What takes the place of a match. -/
def replacing (r : Rule) (text : List Char) (m : Match) : List Char :=
  r.strategy.rewrite r.pattern text m

/-- How many of the matches in a text are replaced. -/
def limitIn (r : Rule) (text : List Char) : Nat :=
  let found := (r.pattern.matchesIn text).length
  match r.kind with
  | .scopedDeletion => min (r.maxApplications.getD 0) (found - 1)
  | .substitution | .structural => r.maxApplications.elim found (min · found)

/-- The rule in two passes: the matches are counted, and then replaced as far as the rule allows. A
text in which nothing is to be replaced is left alone. -/
def applyCounted (r : Rule) (text : List Char) : List Char × Nat :=
  let limit := r.limitIn text
  if limit = 0 then (text, 0)
  else (r.pattern.replaceFirst text limit (r.replacing text), limit)

theorem limitIn_eq (r : Rule) (text : List Char) :
    r.limitIn text = r.strategy.limit (r.pattern.matchesIn text).length := by
  obtain ⟨id, description, pattern, strategy⟩ := r
  cases strategy with
  | substitution replacement most => cases most <;> rfl
  | structural template most => cases most <;> rfl
  | scopedDeletion most => rfl

theorem limitIn_le (r : Rule) (text : List Char) :
    r.limitIn text ≤ (r.pattern.matchesIn text).length := by
  rw [limitIn]
  split
  · omega
  all_goals
    cases r.maxApplications with
    | none => exact Nat.le_refl _
    | some most => exact Nat.min_le_right ..

theorem edits_eq (r : Rule) (text : List Char) :
    r.edits text =
      ((r.pattern.matchesIn text).take (r.limitIn text)).map (·.edit (r.replacing text)) := by
  rw [limitIn_eq]
  rfl

theorem count_apply_eq (r : Rule) (text : List Char) : (r.apply text).2 = r.limitIn text := by
  rw [apply, edits_eq]
  dsimp only
  rw [List.length_map, List.length_take, Nat.min_eq_left (r.limitIn_le text)]

theorem text_apply_eq (r : Rule) (text : List Char) :
    (r.apply text).1 =
      let ms := (r.pattern.matchesIn text).take (r.limitIn text)
      weave (remainder text 0 ms) (gaps text 0 ms) (ms.map (r.replacing text)) := by
  have hfollow := ((r.pattern.succession_matchesIn text).follow).take (r.limitIn text)
  rw [apply, edits_eq]
  exact splice_eq_weave (r.replacing text) hfollow

/-- Counting first and replacing then comes to the same. -/
theorem apply_eq_applyCounted (r : Rule) (text : List Char) :
    r.apply text = r.applyCounted text := by
  refine Prod.ext ?_ ?_
  · rw [text_apply_eq, applyCounted]
    split
    · next hzero =>
      rw [hzero, List.take_zero]
      rfl
    · next hpos =>
      rw [Pattern.replaceFirst, Pattern.replaceFirst_go text _ (Nat.pos_of_ne_zero hpos),
        Nat.sub_zero]
  · rw [count_apply_eq, applyCounted]
    split
    · next hzero => rw [hzero]
    · rfl

theorem apply_of_limitIn_eq_zero {r : Rule} {text : List Char} (h : r.limitIn text = 0) :
    r.apply text = (text, 0) := by
  rw [apply_eq_applyCounted, applyCounted]
  exact if_pos h

/-- A rule replaces the first matches in a text, each by what it makes of this match, and keeps the
gaps between them and all that comes after them. Their number is that of all matches as far as the
bound of the rule allows, but a scoped deletion leaves the last match. -/
theorem apply_replaces_first (r : Rule) (text : List Char) :
    let ms := r.pattern.matchesIn text
    let k := match r.strategy with
      | .substitution _ most | .structural _ most => most.elim ms.length (min ·.count ms.length)
      | .scopedDeletion most => min most.count (ms.length - 1)
    let new := fun m => match r.strategy with
      | .substitution replacement _ => Replacement.expand r.pattern m text replacement
      | .structural template _ => template.render r.pattern m text
      | .scopedDeletion _ => []
    let replaced := ms.take k
    (Succession text.toArray r.pattern.regex 0 none ms ∧ Follow text.length 0 ms ∧
      ms.Pairwise fun m m' => m.stop < m'.stop) ∧
    r.apply text = r.applyCounted text ∧
    ((r.apply text).2 = k ∧ replaced.length = k ∧ (gaps text 0 replaced).length = k) ∧
    text = weave (remainder text 0 replaced) (gaps text 0 replaced)
      (replaced.map (·.matched text)) ∧
    (r.apply text).1 = weave (remainder text 0 replaced) (gaps text 0 replaced)
      (replaced.map new) ∧
    (k = 0 → r.apply text = (text, 0)) := by
  intro ms k new replaced
  have hms := r.pattern.succession_matchesIn text
  have hk : k = r.limitIn text := (r.limitIn_eq text).symm
  have hnew : new = r.replacing text := rfl
  have hreplaced : Follow text.length 0 replaced := hms.follow.take k
  have hlength : replaced.length = k := by
    rw [List.length_take, hk, Nat.min_eq_left (r.limitIn_le text)]
  refine ⟨⟨hms, hms.follow, hms.stop_lt⟩, r.apply_eq_applyCounted text, ⟨?_, hlength, ?_⟩, ?_, ?_,
    ?_⟩
  · rw [hk, count_apply_eq]
  · rw [length_gaps, hlength]
  · exact (weave_matched hreplaced).symm
  · rw [hnew, text_apply_eq, ← hk]
  · intro hzero
    exact apply_of_limitIn_eq_zero (hk ▸ hzero)

/-- Empty matches are replaced as well, but none right after another match. -/
example :
    let regex : Regex := .star true (.set (· == 'x'))
    let rule : Rule := ⟨"dash", none, { source := "x*", regex, names := [] },
      .substitution "-" none⟩
    rule.apply "axb".toList = ("-a-b-".toList, 3) := by
  decide +kernel

end Rule

end Amend
