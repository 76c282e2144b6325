import Amend.Rule.Basic

/-!
# Applying rules

Rules are applied one after the other, each to the text that the one before left. A rule that
rewrites nothing is as if it were not there (`applyAll_cons_of_idle`), and one that fires comes
before what the others do to its text (`applyAll_cons_of_fires`). Where no rule finds anything,
nothing happens (`applyAll_of_matchesIn_eq_nil`).
-/

set_option autoImplicit false

namespace Amend.Rule

theorem apply_of_edits_eq_nil {r : Rule} {text : List Char} (h : r.edits text = []) :
    r.apply text = (text, 0) := by
  unfold apply
  rw [h]
  rfl

theorem apply_of_count_eq_zero {r : Rule} {text : List Char} (h : (r.apply text).2 = 0) :
    r.apply text = (text, 0) :=
  apply_of_edits_eq_nil (List.length_eq_zero_iff.mp h)

section
variable {r : Rule} {text : List Char}

theorem applyAll_cons_of_idle (h : (r.apply text).2 = 0) (rs : List Rule) :
    applyAll (r :: rs) text = applyAll rs text := by
  rw [applyAll, trace]
  dsimp only
  rw [if_pos h, applyAll]

theorem applyAll_cons_of_fires (h : (r.apply text).2 ≠ 0) (rs : List Rule) :
    applyAll (r :: rs) text =
      let rest := applyAll rs (r.apply text).1
      ⟨rest.text, r.id :: rest.applied, (r.apply text).2 + rest.replacements⟩ := by
  rw [applyAll, trace]
  dsimp only
  rw [if_neg h, applyAll, Rewrite.ofSteps, Rewrite.ofSteps, List.getLast?_cons]
  cases (trace rs (r.apply text).1).getLast? <;> rfl

theorem text_applyAll_cons (r : Rule) (rs : List Rule) (text : List Char) :
    (applyAll (r :: rs) text).text = (applyAll rs (r.apply text).1).text := by
  by_cases h : (r.apply text).2 = 0
  · rw [applyAll_cons_of_idle h, apply_of_count_eq_zero h]
  · rw [applyAll_cons_of_fires h]

end

theorem applyAll_of_matchesIn_eq_nil {rs : List Rule} {text : List Char}
    (h : ∀ r ∈ rs, r.pattern.matchesIn text = []) : applyAll rs text = ⟨text, [], 0⟩ := by
  have htrace : trace rs text = [] := by
    induction rs with
    | nil => rfl
    | cons r rs ih =>
      have hedits : r.edits text = [] := by
        unfold edits
        rw [h r List.mem_cons_self]
        exact congrArg _ List.take_nil
      rw [trace, apply_of_edits_eq_nil hedits]
      exact ih fun s hs => h s (List.mem_cons_of_mem _ hs)
  rw [applyAll, htrace]
  rfl

end Amend.Rule
