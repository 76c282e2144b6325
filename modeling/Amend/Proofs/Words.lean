import Mathlib.Data.List.Infix

/-!
# Words that keep apart

Where words cannot overlap (`Apart`), one that stands in a text stands before or after the other
(`Apart.cases`). So it cannot come about when the other is put into the text (`Apart.lacks`).
-/

set_option autoImplicit false

namespace Amend

variable {v w m n u x y z : List Char} {d : Char}

/-! ## Words at one place -/

/-- The words differ at a place that both have. -/
def Clash (v w : List Char) : Prop :=
  ¬ v <+: w ∧ ¬ w <+: v

/-- Whether the words differ at a place that both have. -/
def clashes : List Char → List Char → Bool
  | c :: v, d :: w => c != d || clashes v w
  | _, _ => false

theorem clashes_iff : clashes v w = true ↔ Clash v w := by
  induction v generalizing w with
  | nil => simp [clashes, Clash]
  | cons c v ih =>
    cases w with
    | nil => simp [clashes, Clash]
    | cons d w =>
      simp only [clashes, Clash, Bool.or_eq_true, bne_iff_ne, ih, List.cons_prefix_cons, not_and]
      tauto

instance : Decidable (Clash v w) :=
  decidable_of_iff _ clashes_iff

theorem Clash.symm (h : Clash v w) : Clash w v :=
  And.symm h

theorem Clash.append_right (h : Clash v w) (x : List Char) : Clash v (w ++ x) := by
  refine ⟨fun hv => ?_, fun hw => h.2 ((List.prefix_append w x).trans hw)⟩
  exact (List.prefix_or_prefix_of_prefix hv (List.prefix_append w x)).elim h.1 h.2

/-- Words that differ do not begin one text. -/
theorem Clash.append_ne (h : Clash v w) (x y : List Char) : v ++ x ≠ w ++ y := by
  intro heq
  have hw : w <+: v ++ x := ⟨y, heq.symm⟩
  rcases List.prefix_or_prefix_of_prefix (List.prefix_append v x) hw with hprefix | hprefix
  · exact h.1 hprefix
  · exact h.2 hprefix

/-- Where two splits of a text part: the first part of one is the longer. -/
theorem append_cases (heq : x ++ y = u ++ v) :
    (∃ s, u = x ++ s ∧ y = s ++ v) ∨ ∃ s, x = u ++ s ∧ v = s ++ y ∧ s ≠ [] := by
  rcases List.append_eq_append_iff.mp heq with ⟨s, rfl, rfl⟩ | ⟨s, rfl, rfl⟩
  · exact .inl ⟨s, rfl, rfl⟩
  · rcases List.eq_nil_or_concat s with rfl | ⟨s, c, rfl⟩
    · exact .inl ⟨[], by simp, rfl⟩
    · exact .inr ⟨_, rfl, rfl, by simp⟩

/-! ## Words that do not overlap -/

/-- The other word differs from each end of the word. -/
def EndsClash (v w : List Char) : Prop :=
  ∀ t s, v = t ++ s → s ≠ [] → Clash s w

/-- Whether the other word differs from each end of the word. -/
def endsClash : List Char → List Char → Bool
  | [], _ => true
  | c :: v, w => clashes (c :: v) w && endsClash v w

theorem endsClash_iff : endsClash v w = true ↔ EndsClash v w := by
  induction v with
  | nil =>
    refine ⟨fun _ t s heq hs => ?_, fun _ => rfl⟩
    exact absurd (List.append_eq_nil_iff.mp heq.symm).2 hs
  | cons c v ih =>
    rw [endsClash, Bool.and_eq_true, clashes_iff, ih]
    constructor
    · rintro ⟨hall, hends⟩ t s heq hs
      rcases t with _ | ⟨d, t⟩
      · obtain rfl : _ = s := heq
        exact hall
      · exact hends t s (List.cons.inj heq).2 hs
    · intro h
      refine ⟨h [] _ rfl (List.cons_ne_nil _ _), fun t s heq hs => ?_⟩
      exact h (c :: t) s (congrArg (c :: ·) heq) hs

instance : Decidable (EndsClash v w) :=
  decidable_of_iff _ endsClash_iff

/-- Wherever the words are laid over each other, they differ. -/
def Apart (v w : List Char) : Prop :=
  EndsClash v w ∧ EndsClash w v

instance : Decidable (Apart v w) :=
  inferInstanceAs (Decidable (_ ∧ _))

/-- A word stands before a word that it cannot overlap, or after it. -/
theorem Apart.cases (h : Apart v n) (heq : x ++ (n ++ y) = u ++ (v ++ w)) :
    (∃ z, x = u ++ (v ++ z) ∧ w = z ++ (n ++ y)) ∨
      ∃ z, u = x ++ (n ++ z) ∧ y = z ++ (v ++ w) := by
  rcases append_cases heq with ⟨s, rfl, hs⟩ | ⟨s, rfl, hs, hne⟩
  · rcases append_cases hs with ⟨t, rfl, ht⟩ | ⟨t, rfl, ht, hne⟩
    · exact .inr ⟨t, rfl, ht⟩
    · exact absurd ht.symm ((h.2 s t rfl hne).append_ne _ _)
  · rcases append_cases hs with ⟨t, rfl, ht⟩ | ⟨t, rfl, ht, hne'⟩
    · exact .inl ⟨t, rfl, ht⟩
    · exact absurd ht.symm ((h.1 s t rfl hne').append_ne _ _)

/-- The word stands nowhere in the text. -/
def Lacks (v text : List Char) : Prop :=
  ∀ u w, text ≠ u ++ (v ++ w)

theorem lacks_iff : Lacks v x ↔ ¬ v <:+: x := by
  refine ⟨fun h => ?_, fun h u w heq => h ⟨u, w, by simp [heq]⟩⟩
  rintro ⟨u, w, rfl⟩
  exact h u w (by simp)

instance : Decidable (Lacks v x) :=
  decidable_of_iff _ lacks_iff.symm

theorem Lacks.append_left (h : Lacks v (x ++ y)) : Lacks v x := by
  rintro u w rfl
  exact h u (w ++ y) (by simp)

theorem Lacks.append_right (h : Lacks v (x ++ y)) : Lacks v y := by
  rintro u w rfl
  exact h (x ++ u) w (by simp)

theorem Lacks.of_suffix (h : Lacks v x) (hsuffix : v <:+ w) : Lacks w x := by
  obtain ⟨t, rfl⟩ := hsuffix
  exact fun u z heq => h (u ++ t) z (by simp [heq])

/-- A word does not come about when one that it cannot overlap is put into a text. -/
theorem Apart.lacks (h : Apart v n) (hlacks : Lacks v (x ++ (m ++ y))) :
    Lacks v (x ++ (n ++ y)) := by
  intro u w heq
  rcases h.cases heq with ⟨z, rfl, rfl⟩ | ⟨z, rfl, rfl⟩
  · exact hlacks u (z ++ (m ++ y)) (by simp)
  · exact hlacks (x ++ (m ++ z)) w (by simp)

end Amend
