import Amend.Proofs.Words

/-!
# Texts enclosed by words

An opening word, a text without the closing character, and a closing word that starts with it
(`EnclosedAt`). When a word is put in the place of another one, an enclosed text that is there
afterwards was there before, unless the word has made it (`EnclosedAt.of_swap`,
`EnclosedAt.of_swap_after`).
-/

set_option autoImplicit false

namespace Amend

/-- After `u` the text goes on with the word `a`, characters other than `d`, `d` itself, and the
word `k`. -/
def EnclosedAt (d : Char) (a k u text : List Char) : Prop :=
  ∃ w v, d ∉ w ∧ w ≠ [] ∧ text = u ++ (a ++ (w ++ d :: (k ++ v)))

variable {d : Char} {a k m n s t u v w x y : List Char}

theorem EnclosedAt.append_left (h : EnclosedAt d a k u y) (x : List Char) :
    EnclosedAt d a k (x ++ u) (x ++ y) := by
  obtain ⟨w, v, hw, hne, rfl⟩ := h
  exact ⟨w, v, hw, hne, by simp⟩

theorem EnclosedAt.of_append_left (h : EnclosedAt d a k (x ++ u) (x ++ y)) :
    EnclosedAt d a k u y := by
  obtain ⟨w, v, hw, hne, heq⟩ := h
  exact ⟨w, v, hw, hne, by simpa using heq⟩

theorem dropWhile_bne (hs : d ∉ s) : (s ++ d :: t).dropWhile (· != d) = d :: t := by
  have hne : ∀ c ∈ s, (c != d) = true := fun c hc => bne_iff_ne.mpr fun hcd => hs (hcd ▸ hc)
  rw [List.dropWhile_append_of_pos hne]
  exact List.dropWhile_cons_of_neg (by simp)

theorem append_cons_inj (h : x ++ d :: w = y ++ d :: v) (hw : d ∉ w) (hv : d ∉ v) :
    x = y ∧ w = v := by
  rcases append_cases h with ⟨s, rfl, hs⟩ | ⟨s, rfl, hs, -⟩
  · rcases s with _ | ⟨c, s⟩
    · exact ⟨by simp, (List.cons.inj hs).2⟩
    · exact absurd ((List.cons.inj hs).2 ▸ by simp) hw
  · rcases s with _ | ⟨c, s⟩
    · exact ⟨by simp, (List.cons.inj hs).2.symm⟩
    · exact absurd ((List.cons.inj hs).2 ▸ by simp) hv

theorem append_cons_inj' (h : x ++ d :: w = y ++ d :: v) (hx : d ∉ x) (hy : d ∉ y) :
    x = y ∧ w = v := by
  rcases append_cases h with ⟨s, rfl, hs⟩ | ⟨s, rfl, hs, -⟩
  · rcases s with _ | ⟨c, s⟩
    · exact ⟨by simp, (List.cons.inj hs).2⟩
    · obtain ⟨rfl, -⟩ := List.cons.inj hs
      simp at hy
  · rcases s with _ | ⟨c, s⟩
    · exact ⟨by simp, (List.cons.inj hs).2.symm⟩
    · obtain ⟨rfl, -⟩ := List.cons.inj hs
      simp at hx

/-- A part of a text reaches beyond the first of a character, or it is without this character. -/
theorem append_cons_cases (h : x ++ d :: w = u ++ v) (hx : d ∉ x) :
    (∃ s, u = x ++ d :: s ∧ w = s ++ v) ∨ d ∉ u := by
  rcases append_cases h with ⟨s, rfl, hs⟩ | ⟨s, rfl, -, -⟩
  · rcases s with _ | ⟨c, s⟩
    · exact .inr (by simpa using hx)
    · obtain ⟨rfl, rfl⟩ := List.cons.inj hs
      exact .inl ⟨s, rfl, rfl⟩
  · exact .inr fun hmem => hx (List.mem_append_left _ hmem)

/-- An enclosed text stands before a word or after it, or the word is a part of it, unless the
closing word overlaps with it. -/
theorem EnclosedAt.cases (h : EnclosedAt d a k u (x ++ (n ++ y))) (hn : n ≠ []) (ha : Apart a n)
    (hdrop : d ∈ n → Clash (n.dropWhile (· != d)) (d :: k))
    (hclose : ∀ w t s, d ∉ w → x = u ++ (a ++ (w ++ d :: t)) → k = t ++ s → s ≠ [] → Clash s n)
    (hm : d ∉ n → d ∉ m ∧ m ≠ []) :
    (EnclosedAt d a k u (x ++ (m ++ y)) ∧ ∃ z, x = u ++ (a ++ z)) ∨
      ∃ z, u = x ++ (n ++ z) ∧ EnclosedAt d a k z y := by
  obtain ⟨w, v, hw, hne, heq⟩ := h
  rcases ha.cases heq with ⟨z, rfl, hrest⟩ | ⟨z, rfl, hy⟩
  swap
  · exact .inr ⟨z, rfl, w, v, hw, hne, hy⟩
  refine .inl ⟨?_, z, rfl⟩
  -- the closing word starts in what comes before the place, or after it, or in the place itself
  rcases append_cases hrest with ⟨s, rfl, hs⟩ | ⟨s, rfl, hs, -⟩
  · rcases s with _ | ⟨c, s⟩
    · obtain ⟨c, n, rfl⟩ := List.exists_cons_of_ne_nil hn
      obtain ⟨rfl, -⟩ := List.cons.inj hs
      have hclash := hdrop List.mem_cons_self
      rw [← List.nil_append (d :: n), dropWhile_bne List.not_mem_nil] at hclash
      exact absurd hs.symm (hclash.append_ne y v)
    · obtain ⟨rfl, hk⟩ := List.cons.inj hs
      rcases append_cases hk with ⟨t, rfl, ht⟩ | ⟨t, rfl, ht, hne'⟩
      · exact ⟨w, t ++ (m ++ y), hw, hne, by simp⟩
      · exact absurd ht.symm ((hclose w s t hw (by simp) rfl hne').append_ne _ _)
  · rcases append_cases hs with ⟨t, rfl, ht⟩ | ⟨t, rfl, ht, hne'⟩
    · rw [List.mem_append, List.mem_append, not_or, not_or] at hw
      obtain ⟨hm, hm'⟩ := hm hw.2.1
      exact ⟨z ++ (m ++ t), v, by simp [hw, hm], by simp [hm'], by simp [ht]⟩
    · obtain ⟨c, t, rfl⟩ := List.exists_cons_of_ne_nil hne'
      obtain ⟨rfl, -⟩ := List.cons.inj ht
      have hclash := hdrop (by simp)
      rw [dropWhile_bne fun hmem => hw (by simp [hmem])] at hclash
      exact absurd ht.symm (hclash.append_ne y v)

/-! ## Words that make no enclosed text -/

/-- The word is not a part of the opening or the closing word of an enclosed text. -/
def Neutral (d : Char) (a k n : List Char) : Prop :=
  n ≠ [] ∧ Apart a n ∧ EndsClash k n ∧
    (d ∈ n → Clash (n.dropWhile (· != d)) (d :: k))

instance : Decidable (Neutral d a k n) :=
  inferInstanceAs (Decidable (_ ∧ _))

/-- A neutral word in the place of another one leaves the enclosed texts around it. -/
theorem EnclosedAt.of_swap (h : EnclosedAt d a k u (x ++ (n ++ y))) (hn : Neutral d a k n)
    (hm : d ∉ n → d ∉ m ∧ m ≠ []) :
    (EnclosedAt d a k u (x ++ (m ++ y)) ∧ ∃ z, x = u ++ (a ++ z)) ∨
      ∃ z, u = x ++ (n ++ z) ∧ EnclosedAt d a k z y :=
  h.cases hn.1 hn.2.1 hn.2.2.2
    (fun _ t s _ _ hk hs => hn.2.2.1 t s hk hs) hm

/-- The same for a word that stands right after an enclosed text, whose opening word is not the one
that is looked for, or which does not go on with the closing word. -/
theorem EnclosedAt.of_swap_after {o w₀ : List Char} (hw₀ : d ∉ w₀)
    (h : EnclosedAt d (o ++ [d]) k u (x ++ d :: (w₀ ++ d :: (n ++ y)))) (hn : n ≠ [])
    (ha : Apart (o ++ [d]) n) (hdk : d ∉ k) (hdn : d ∉ n) (hdm : d ∉ m) (hm : m ≠ [])
    (hother : Clash k n ∨ ¬ o <:+ x) :
    (EnclosedAt d (o ++ [d]) k u (x ++ d :: (w₀ ++ d :: (m ++ y))) ∧
      ∃ z, x ++ d :: (w₀ ++ [d]) = u ++ (o ++ d :: z)) ∨
      ∃ z, u = x ++ d :: (w₀ ++ d :: (n ++ z)) ∧ EnclosedAt d (o ++ [d]) k z y := by
  have hsplit : ∀ z, x ++ d :: (w₀ ++ d :: z) = (x ++ d :: (w₀ ++ [d])) ++ z := by simp
  have hclose : ∀ w t s, d ∉ w → x ++ d :: (w₀ ++ [d]) = u ++ (o ++ [d] ++ (w ++ d :: t)) →
      k = t ++ s → s ≠ [] → Clash s n := by
    rintro w t s hw heq rfl hs
    have ht : d ∉ t := fun hmem => hdk (List.mem_append_left _ hmem)
    have hlast : (x ++ d :: w₀) ++ d :: [] = (u ++ (o ++ d :: w)) ++ d :: t := by
      simpa using heq
    obtain ⟨hinit, rfl⟩ := append_cons_inj hlast List.not_mem_nil ht
    rcases hother with hclash | ho
    · exact hclash
    · have hopen : x ++ d :: w₀ = (u ++ o) ++ d :: w := by simpa using hinit
      exact absurd ⟨u, (append_cons_inj hopen hw₀ hw).1.symm⟩ ho
  rw [hsplit] at h
  rcases h.cases hn ha (fun hmem => absurd hmem hdn) hclose (fun _ => ⟨hdm, hm⟩) with
    ⟨h, z, hz⟩ | ⟨z, rfl, hz⟩
  · exact .inl ⟨by rwa [hsplit], z, by simpa using hz⟩
  · exact .inr ⟨z, by simp, hz⟩

/-! ## Texts without enclosed texts -/

/-- The text encloses nothing between these words. -/
def Unenclosed (d : Char) (a k text : List Char) : Prop :=
  ∀ u, ¬ EnclosedAt d a k u text

/-- An enclosed text starts within another one. -/
def Nested (d : Char) (a k text : List Char) : Prop :=
  ∃ u w, d ∉ w ∧ EnclosedAt d a k u text ∧ EnclosedAt d a k (u ++ (a ++ w)) text

theorem Nested.length_le (h : Nested d a k x) : a.length + a.length ≤ x.length := by
  obtain ⟨u, w, -, -, w', v, -, -, rfl⟩ := h
  simp only [List.length_append]
  omega

/-- Texts that the closing character alone closes are nested if one opening word comes after another
before they are closed. -/
theorem nested_iff (ha : d ∉ a) : Nested d a [] x ↔ ∃ u w₁ w₂ v, d ∉ w₁ ∧ d ∉ w₂ ∧ w₂ ≠ [] ∧
    x = u ++ (a ++ (w₁ ++ (a ++ (w₂ ++ d :: v)))) := by
  constructor
  · rintro ⟨u, w₁, hw₁, -, w₂, v, hw₂, hne, rfl⟩
    exact ⟨u, w₁, w₂, v, hw₁, hw₂, hne, by simp⟩
  · rintro ⟨u, w₁, w₂, v, hw₁, hw₂, hne, rfl⟩
    exact ⟨u, w₁, hw₁, ⟨w₁ ++ (a ++ w₂), v, by simp [hw₁, ha, hw₂], by simp [hne], by simp⟩,
      w₂, v, hw₂, hne, by simp⟩

namespace Neutral

theorem unenclosed (hn : Neutral d a k n) (hm : d ∉ n → d ∉ m ∧ m ≠ [])
    (h : Unenclosed d a k (x ++ (m ++ y))) : Unenclosed d a k (x ++ (n ++ y)) := by
  intro u hu
  rcases hu.of_swap hn hm with ⟨hold, -⟩ | ⟨z, -, hold⟩
  · exact h u hold
  · exact h _ ((hold.append_left m).append_left x)

theorem nested (hn : Neutral d a k n) (hm : d ∉ n → d ∉ m ∧ m ≠ [])
    (h : Nested d a k (x ++ (n ++ y))) : Nested d a k (x ++ (m ++ y)) := by
  obtain ⟨u, w, hw, houter, hinner⟩ := h
  rcases houter.of_swap hn hm with ⟨hold, z, rfl⟩ | ⟨z, rfl, hold⟩
  · rcases hinner.of_swap hn hm with ⟨hold', -⟩ | ⟨s, heq, hold'⟩
    · exact ⟨u, w, hw, hold, hold'⟩
    · obtain rfl : w = z ++ (n ++ s) := by simpa using heq
      simp only [List.mem_append, not_or] at hw
      refine ⟨u, z ++ (m ++ s), by simp [hw, (hm hw.2.1).1], hold, ?_⟩
      simpa using (hold'.append_left m).append_left (u ++ (a ++ z))
  · have hinside : EnclosedAt d a k (z ++ (a ++ w)) y := by
      refine EnclosedAt.of_append_left (x := x ++ n) ?_
      simpa using hinner
    refine ⟨x ++ (m ++ z), w, hw, (hold.append_left m).append_left x, ?_⟩
    simpa using (hinside.append_left m).append_left x

end Neutral

/-- Where an enclosed text ends without another one that ends with it, the nesting is elsewhere. -/
theorem Nested.of_enclosed (ha : d ∉ a) (hw : d ∉ w)
    (h : Nested d a [] (a ++ (w ++ d :: y))) :
    Nested d a [] y ∨ ∃ z, EnclosedAt d a [] z (w ++ [d]) := by
  obtain ⟨u, w₁, w₂, v, hw₁, hw₂, hne, heq⟩ := (nested_iff ha).mp h
  rw [← List.append_assoc] at heq
  rcases append_cons_cases heq (by simp [ha, hw]) with ⟨s, rfl, rfl⟩ | hu
  · exact .inl ((nested_iff ha).mpr ⟨s, w₁, w₂, v, hw₁, hw₂, hne, rfl⟩)
  · have hends : (a ++ w) ++ d :: y = (u ++ (a ++ w₁) ++ (a ++ w₂)) ++ d :: v := by
      simpa using heq
    obtain ⟨hinner, -⟩ := append_cons_inj' hends (by simp [ha, hw]) (by simp [ha, hu, hw₁, hw₂])
    rcases append_cases hinner with ⟨z, -, rfl⟩ | ⟨s, hs, -, hs'⟩
    · exact .inr ⟨z, w₂, [], hw₂, hne, by simp⟩
    · have hlength := congrArg List.length hs
      have hpos := List.length_pos_iff.mpr hs'
      simp only [List.length_append] at hlength
      omega

end Amend
