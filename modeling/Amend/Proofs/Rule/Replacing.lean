import Amend.Proofs.Rewording
import Amend.Proofs.Rule.Passage
import Amend.Proofs.Rule.PlainText

/-!
# Rules for words

A rule that puts one word in the place of another (`Rule.Replaces`) leaves nothing to find if the
words cannot overlap (`Rule.Replaces.lacks_apply`), or if it cuts off the end of the word and the
same end never follows (`Rule.Replaces.lacks_apply_of_cut`).
-/

set_option autoImplicit false

namespace Amend.Rule

/-- The rule replaces the word `v` by `n`. -/
structure Replaces (r : Rule) (v n : List Char) : Prop where
  regex : r.pattern.regex = Pattern.literalRegex v
  nonempty : v ≠ []
  limit : ∀ k, r.strategy.limit k = k
  rewrite : ∀ text m, r.strategy.rewrite r.pattern text m = n

namespace Replaces

variable {r : Rule} {n s text v : List Char}

theorem swaps (h : r.Replaces v n) :
    r.Swaps fun _ found new _ => found = v ∧ new = n where
  total := ⟨h.limit, fun text => h.regex ▸ Pattern.neverEmpty_literalRegex h.nonempty⟩
  swap before found rest saved htakes := by
    rw [h.regex] at htakes
    obtain ⟨rest', heq, hb⟩ := (Regex.takes_literal rfl).mp htakes
    obtain ⟨hstop, -⟩ := Point.mk.inj hb
    refine ⟨(List.append_inj heq ?_).1, h.rewrite _ _⟩
    simpa using hstop
  starts before found new rest := by
    rintro ⟨rfl, -⟩
    unfold Pattern.Starts
    rw [h.regex]
    exact ⟨_, (Regex.takes_literal rfl).mpr ⟨rest, rfl, rfl⟩⟩

theorem matchesIn_eq_nil_iff (h : r.Replaces v n) :
    r.pattern.matchesIn text = [] ↔ Lacks v text := by
  rw [h.swaps.matchesIn_eq_nil_iff]
  exact ⟨fun hnone u w heq => hnone u v n w heq ⟨rfl, rfl⟩,
    fun hlacks before found new rest heq hm => hlacks before rest (hm.1 ▸ heq)⟩

theorem preserves {P : List Char → Prop} (h : r.Replaces v n) (htext : P text)
    (hswap : ∀ before out rest, text = before ++ (v ++ rest) →
      P (out ++ (v ++ rest)) → P (out ++ (n ++ rest))) : P (r.apply text).1 := by
  refine h.swaps.preserves htext ?_
  rintro before out _ _ rest heq ⟨rfl, rfl⟩ hp
  exact hswap before out rest heq hp

theorem reworded (h : r.Replaces v n) (text : List Char) :
    Reworded [(v, n)] text (r.apply text).1 :=
  h.preserves (.refl _ _) fun _ _ _ _ hold => hold.swap List.mem_cons_self

/-- A rule leaves nothing to find if no swap makes a word that starts in what is written. -/
theorem lacks_of_swap (h : r.Replaces v n)
    (hswap : ∀ before out rest, text = before ++ (v ++ rest) →
      (∀ u w, out ++ (v ++ rest) = u ++ (v ++ w) → out.length ≤ u.length) →
      ∀ u w, out ++ (n ++ rest) = u ++ (v ++ w) → (out ++ n).length ≤ u.length) :
    Lacks v (r.apply text).1 := by
  intro u w heq
  refine h.swaps.leaves_none (S := fun u t => ∃ w, t = u ++ (v ++ w)) (I := fun _ _ _ => True)
    trivial ?_ ?_ ?_ u ⟨w, heq⟩
  · rintro u _ ⟨w, rfl⟩
    exact ⟨v ++ w, by simp [h.nonempty], rfl⟩
  · rintro before out c rest - hnone -
    refine ⟨trivial, fun ⟨w, heq⟩ => ?_⟩
    exact hnone v n w (List.append_cancel_left heq) ⟨rfl, rfl⟩
  · rintro before out _ _ rest htext ⟨rfl, rfl⟩ - hold
    refine ⟨trivial, fun u ⟨w, heq⟩ => ?_⟩
    exact hswap before out rest htext (fun u w heq => hold u ⟨w, heq⟩) u w (by simpa using heq)

/-- Words that cannot overlap with what takes their place are all gone. -/
theorem lacks_apply (h : r.Replaces v n) (hn : Apart v n) (text : List Char) :
    Lacks v (r.apply text).1 := by
  refine h.lacks_of_swap fun before out rest _ hold u w heq => ?_
  rcases hn.cases heq with ⟨z, rfl, rfl⟩ | ⟨z, rfl, -⟩
  · have hle := hold u (z ++ (v ++ rest)) (by simp)
    have hpos := List.length_pos_iff.mpr h.nonempty
    simp only [List.length_append] at hle
    omega
  · simp only [List.length_append]
    omega

/-- A word whose end is cut off is gone if it overlaps with what is left of it at no other place,
and the end never stands twice after it. -/
theorem lacks_apply_of_cut (h : r.Replaces (n ++ s) n)
    (hn : EndsClash n.tail (n ++ s)) (hs : EndsClash (n ++ s).tail n)
    (htext : Lacks (n ++ (s ++ s)) text) : Lacks (n ++ s) (r.apply text).1 := by
  refine h.lacks_of_swap fun before out rest htext' hold u w heq => ?_
  rcases append_cases heq with ⟨t, rfl, ht⟩ | ⟨t, rfl, ht, hne⟩
  · rcases append_cases ht with ⟨p, rfl, -⟩ | ⟨p, rfl, hp, hne⟩
    · simp only [List.length_append]
      omega
    · rcases t with _ | ⟨c, t⟩
      · rw [List.nil_append, List.append_assoc, List.append_cancel_left_eq] at hp
        exact absurd (by rw [htext', ← hp]; simp) (htext before w)
      · exact absurd hp.symm ((hn t p rfl hne).append_ne _ _)
  · rcases append_cases ht with ⟨p, rfl, -⟩ | ⟨p, hp, hp', hne'⟩
    · have hle := hold u (p ++ ((n ++ s) ++ rest)) (by simp)
      have hpos := List.length_pos_iff.mpr h.nonempty
      simp only [List.length_append] at hle hpos
      omega
    · obtain ⟨c, t, rfl⟩ := List.exists_cons_of_ne_nil hne
      have hclash := hs t p (congrArg List.tail hp) hne'
      exact absurd hp'.symm (hclash.append_ne _ _)

end Replaces

/-! ## Words that stand for themselves -/

/-- A rule that puts a text in the place of a word. -/
def ofWord (id word new : String) (description : Option String) : Rule where
  id
  description
  pattern := RuleDefinition.exactPattern word
  strategy := .substitution new none

theorem replaces_ofWord {word new : String} (hword : word.toList ≠ []) (hnew : '$' ∉ new.toList)
    (id : String) (description : Option String) :
    (ofWord id word new description).Replaces word.toList new.toList where
  regex := rfl
  nonempty := hword
  limit _ := rfl
  rewrite text m := Replacement.expand_plain hnew _ m text

end Amend.Rule
