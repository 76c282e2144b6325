import Amend.Proofs.Catalog.BuiltIn
import Amend.Proofs.Rule.LineRules

/-!
# The status arm that stands twice

The built-in set for `src/error.rs` takes the first of the lines that map `MessageTooLong` to its
status out of a text that has several of them. However often it is applied, the last one is kept,
and so are all other lines (`BuiltIn.statusArm_removesSurplus`).
-/

set_option autoImplicit false

namespace Amend

open Regex

namespace BuiltIn

/-! ## The rule -/

/-- The arm of the match. -/
def armText : List Char :=
  "Self::MessageTooLong \x7b .. \x7d => 413,".toList

/-- Spaces and tabs. -/
def isBlankChar (c : Char) : Bool :=
  ['\t', ' '].any (c == ·)

/-- A line with nothing but the arm. -/
def IsArmLine (l : List Char) : Prop :=
  ∃ indent trail ending, (∀ c ∈ indent, isBlankChar c = true) ∧
    (∀ c ∈ trail, isBlankChar c = true) ∧ (ending = ['\n'] ∨ ending = ['\r', '\n']) ∧
    l = indent ++ (armText ++ (trail ++ ending))

/-- Whether the line has nothing but the arm. -/
def isArmLine (l : List Char) : Bool :=
  let body := l.dropWhile isBlankChar
  armText.isPrefixOf body &&
    [['\n'], ['\r', '\n']].contains ((body.drop armText.length).dropWhile isBlankChar)

theorem isArmLine_iff {l : List Char} : isArmLine l = true ↔ IsArmLine l := by
  have hstart : ∀ w, (armText ++ w).dropWhile isBlankChar = armText ++ w := fun _ => rfl
  rw [isArmLine, Bool.and_eq_true, List.isPrefixOf_iff_prefix, List.contains_iff_mem]
  constructor
  · rintro ⟨⟨after, harm⟩, hending⟩
    rw [← harm, List.drop_left] at hending
    refine ⟨l.takeWhile isBlankChar, after.takeWhile isBlankChar, after.dropWhile isBlankChar,
      List.all_eq_true.mp List.all_takeWhile, List.all_eq_true.mp List.all_takeWhile,
      by simpa using hending, ?_⟩
    rw [List.takeWhile_append_dropWhile, harm, List.takeWhile_append_dropWhile]
  · rintro ⟨indent, trail, ending, hindent, htrail, hending, rfl⟩
    have hend : ending.dropWhile isBlankChar = ending := by
      rcases hending with rfl | rfl <;> rfl
    rw [List.dropWhile_append_of_pos hindent, hstart, List.drop_left,
      List.dropWhile_append_of_pos htrail, hend]
    exact ⟨List.prefix_append .., by simpa using hending⟩

instance : DecidablePred IsArmLine :=
  fun _ => decidable_of_iff _ isArmLine_iff

/-- What the pattern of the rule is made up of after the start of a line. -/
def armParts : List Regex :=
  .star true (.set isBlankChar) :: ((armText.map fun c => .set (· == c)) ++
    [.star true (.set isBlankChar), .upTo true (.set (· == '\r')) 1, .set (· == '\n')])

/-- The rule of the set. -/
def armRule : Rule where
  id := "duplicate-message-too-long-arm"
  description := none
  pattern := {
    source := "(?m)^[ \\t]*Self::MessageTooLong \\\x7b \\.\\. \\\x7d => 413,[ \\t]*\\r?\\n"
    regex := .concat (.assert (.lineStart false) :: armParts)
    names := [] }
  strategy := .scopedDeletion ⟨1, Nat.one_pos⟩

set_option maxRecDepth 2000 in
theorem expands_duplicateStatusArm : duplicateStatusArm.Expands [armRule] [] :=
  ⟨.cons rfl .nil, .inl ⟨rfl, rfl⟩⟩

/-! ## The lines that the rule finds -/

theorem denotes_armParts : Denotes (.concat armParts) {l | IsArmLine l} := by
  have hblanks := denotes_star_set true isBlankChar
  have hparts := hblanks.cons ((denotes_literal armText).append (hblanks.cons denotes_lineEnd))
  refine cast (congrArg _ ?_) hparts
  ext l
  constructor
  · intro hl
    obtain ⟨indent, hindent, _, hbody, rfl⟩ := Language.mem_mul.mp hl
    obtain ⟨_, rfl, _, hafter, rfl⟩ := Language.mem_mul.mp hbody
    obtain ⟨trail, htrail, ending, hending, rfl⟩ := Language.mem_mul.mp hafter
    exact ⟨indent, trail, ending, hindent, htrail, hending, rfl⟩
  · rintro ⟨indent, trail, ending, hindent, htrail, hending, rfl⟩
    exact Language.append_mem_mul hindent (Language.append_mem_mul rfl
      (Language.append_mem_mul htrail hending))

theorem isLine_of_isArmLine {l : List Char} (h : IsArmLine l) : IsLine l := by
  obtain ⟨indent, trail, ending, hindent, htrail, hending, rfl⟩ := h
  have hblank : ∀ c, isBlankChar c = true → c ≠ '\n' := by
    rintro c hc rfl
    cases hc
  have harm : '\n' ∉ armText := by decide
  have hbody : '\n' ∉ indent ++ (armText ++ trail) := by
    simp only [List.mem_append, not_or]
    exact ⟨fun h => hblank _ (hindent _ h) rfl, harm, fun h => hblank _ (htrail _ h) rfl⟩
  rcases hending with rfl | rfl
  · exact ⟨indent ++ (armText ++ trail), hbody, by simp⟩
  · refine ⟨indent ++ (armText ++ (trail ++ ['\r'])), ?_, by simp⟩
    simpa using hbody

theorem findsLines_armRule : FindsLines armRule.pattern fun l => decide (IsArmLine l) := by
  refine .of_denotes rfl ?_ denotes_armParts (fun l => decide_eq_true_iff) fun l =>
    isLine_of_isArmLine
  exact List.mem_cons_of_mem _ (List.mem_append_right _ (by simp))

/-! ## One arm line at a time -/

/-- The lines without the first arm line, if there is another. -/
def dropSurplusArm (ls : List (List Char)) : List (List Char) :=
  if 2 ≤ ls.countP (IsArmLine ·) then ls.eraseP (IsArmLine ·) else ls

theorem dropSurplusArm_sublist (ls : List (List Char)) : (dropSurplusArm ls).Sublist ls := by
  unfold dropSurplusArm
  split
  · exact List.eraseP_sublist
  · exact List.Sublist.refl ls

variable {text rest last : List Char} {ls before after : List (List Char)}

theorem applyAll_armRule (h : splitLines text = (ls, rest)) : Rule.applyAll [armRule] text =
    if 2 ≤ ls.countP (IsArmLine ·) then
      ⟨(ls.eraseP (IsArmLine ·)).flatten ++ rest, ["duplicate-message-too-long-arm"], 1⟩
    else ⟨text, [], 0⟩ := by
  have happly := findsLines_armRule.apply_eq h fun _ => rfl
  have hlimit : armRule.strategy.limit (ls.countP (IsArmLine ·)) =
      min 1 (ls.countP (IsArmLine ·) - 1) := rfl
  rw [hlimit] at happly
  split
  · next hmore =>
    have hone : min 1 (ls.countP (IsArmLine ·) - 1) = 1 := by omega
    rw [hone, Nat.min_eq_left (by omega), Function.iterate_one] at happly
    rw [Rule.applyAll_cons_of_fires (by rw [happly]; exact Nat.one_ne_zero), happly]
    rfl
  · next hsingle =>
    have hzero : min 1 (ls.countP (IsArmLine ·) - 1) = 0 := by omega
    rw [hzero, Nat.zero_min] at happly
    rw [Rule.applyAll_cons_of_idle (by rw [happly])]
    rfl

/-- The lines after the rule. What comes after the last of them is kept. -/
theorem splitLines_applyAll_armRule (h : splitLines text = (ls, rest)) :
    splitLines (Rule.applyAll [armRule] text).text = (dropSurplusArm ls, rest) := by
  have hsplit := splitLines_sublist h (dropSurplusArm_sublist ls)
  rw [applyAll_armRule h]
  unfold dropSurplusArm at hsplit ⊢
  split
  · next hmore =>
    rw [if_pos hmore] at hsplit
    exact hsplit
  · exact h

theorem splitLines_iterate_armRule (h : splitLines text = (ls, rest)) (n : Nat) :
    splitLines ((fun text => (Rule.applyAll [armRule] text).text)^[n] text) =
      (dropSurplusArm^[n] ls, rest) := by
  induction n generalizing text ls with
  | zero => exact h
  | succ n ih => exact ih (splitLines_applyAll_armRule h)

/-- The last arm line is kept, and those before it are taken out one after the other. -/
theorem iterate_dropSurplusArm (hlast : IsArmLine last) (hafter : ∀ l ∈ after, ¬ IsArmLine l)
    (n : Nat) : dropSurplusArm^[n] (before ++ last :: after) =
      (List.eraseP (IsArmLine ·))^[n] before ++ last :: after := by
  have hnone : after.countP (IsArmLine ·) = 0 := by simpa [List.countP_eq_zero] using hafter
  induction n generalizing before with
  | zero => rfl
  | succ n ih =>
    rw [Function.iterate_succ_apply, Function.iterate_succ_apply, ← ih]
    congr 1
    unfold dropSurplusArm
    rw [List.countP_append, List.countP_cons, hnone, if_pos (decide_eq_true hlast)]
    split
    · next hmore =>
      obtain ⟨l, hl, harm⟩ := List.countP_pos_iff.mp (show 0 < before.countP (IsArmLine ·) by omega)
      exact List.eraseP_append_left (p := (IsArmLine ·)) harm _ hl
    · next hsingle =>
      rw [List.eraseP_of_forall_not]
      exact List.countP_eq_zero.mp (by omega)

/-- A last arm line, if there is one at all. -/
theorem exists_last_armLine (h : 1 ≤ ls.countP (IsArmLine ·)) : ∃ before last after,
    ls = before ++ last :: after ∧ IsArmLine last ∧ ∀ l ∈ after, ¬ IsArmLine l := by
  obtain ⟨l, hl, harm⟩ := List.countP_pos_iff.mp h
  obtain ⟨last, after, before, hafter, hlast, hls, -⟩ :=
    List.exists_of_eraseP (p := (IsArmLine ·)) (List.mem_reverse.mpr hl) harm
  refine ⟨before.reverse, last, after.reverse, ?_, of_decide_eq_true hlast, fun l hl => ?_⟩
  · rw [← List.reverse_reverse ls, hls]
    simp
  · simpa using hafter l (List.mem_reverse.mp hl)

/-- The built-in set for `src/error.rs` takes the first arm line out of a text with several of them,
and does nothing else. So after as many applications as there are arm lines but one, the last of
them is left, with all other lines in their order, and nothing happens any more. -/
theorem statusArm_removesSurplus : ∃ c set, Catalog.builtIn = .ok c ∧
    c.get? ⟨"src/error.rs"⟩ = some set ∧
    (∀ text, let (ls, rest) := splitLines text
      Rule.applyAll set.rules text =
        if 2 ≤ ls.countP (IsArmLine ·) then
          ⟨(ls.eraseP (IsArmLine ·)).flatten ++ rest, ["duplicate-message-too-long-arm"], 1⟩
        else ⟨text, [], 0⟩) ∧
    ∀ text, let (ls, rest) := splitLines text
      1 ≤ ls.countP (IsArmLine ·) → ∃ before last after, ls = before ++ last :: after ∧
        IsArmLine last ∧ (∀ l ∈ after, ¬ IsArmLine l) ∧ ∀ n ≥ ls.countP (IsArmLine ·) - 1,
          let reached := (fun text => (Rule.applyAll set.rules text).text)^[n] text
          splitLines reached = (before.filter (¬ IsArmLine ·) ++ last :: after, rest) ∧
            Rule.applyAll set.rules reached = ⟨reached, [], 0⟩ := by
  have hset : duplicateStatusArm ∈ definition.ruleSets := by simp [definition]
  obtain ⟨c, hc, hget⟩ := exists_get?_eq_some hset expands_duplicateStatusArm
    (List.mem_singleton_self (⟨"src/error.rs"⟩ : Path))
  refine ⟨c, _, hc, hget, fun text => applyAll_armRule rfl, fun text hsome => ?_⟩
  obtain ⟨before, last, after, hls, hlast, hafter⟩ := exists_last_armLine hsome
  have hnone : after.countP (IsArmLine ·) = 0 := by simpa [List.countP_eq_zero] using hafter
  refine ⟨before, last, after, hls, hlast, hafter, fun n hn => ?_⟩
  rw [hls, List.countP_append, List.countP_cons, hnone, if_pos (decide_eq_true hlast)] at hn
  have hlines : splitLines ((fun text => (Rule.applyAll [armRule] text).text)^[n] text) =
      (before.filter (¬ IsArmLine ·) ++ last :: after, (splitLines text).2) := by
    rw [splitLines_iterate_armRule rfl, hls, iterate_dropSurplusArm hlast hafter,
      iterate_eraseP_of_countP_le (by omega)]
    simp
  refine ⟨hlines, (applyAll_armRule hlines).trans (if_neg ?_)⟩
  rw [List.countP_append, List.countP_cons, hnone, if_pos (decide_eq_true hlast),
    List.countP_filter]
  simp

end BuiltIn

end Amend
