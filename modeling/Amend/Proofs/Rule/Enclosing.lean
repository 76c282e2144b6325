import Amend.Proofs.Pattern.Language
import Amend.Proofs.Rewording
import Amend.Proofs.Rule.Passage

/-!
# Rules for enclosed texts

A rule may look for a text that is enclosed by two words and keep the text while the words are
replaced (`Rule.Encloses`). Such a rule leaves nothing to find, unless an enclosed text stands in
another one (`Rule.Encloses.unenclosed_apply`).
-/

set_option autoImplicit false

namespace Amend

open Regex

/-- A text between the words `a` and `d :: k` comes to stand between `a'` and `d :: k'`. -/
def Reenclosed (d : Char) (a a' k k' : List Char) (_ found new _ : List Char) : Prop :=
  ∃ w, d ∉ w ∧ w ≠ [] ∧ found = a ++ (w ++ d :: k) ∧ new = a' ++ (w ++ d :: k')

/-- The expression for a text that is enclosed by two words and saved as a group. -/
def enclosedRegex (d : Char) (a k : List Char) : Regex :=
  concat ((a.map fun c => .set (· == c)) ++
    .group 1 (.plus true (.set fun c => !(c == d))) :: (d :: k).map fun c => .set (· == c))

namespace Rule

/-- The rule replaces the words that enclose a text. -/
structure Encloses (r : Rule) (d : Char) (a a' k k' : List Char) : Prop where
  regex : r.pattern.regex = enclosedRegex d a k
  limit : ∀ n, r.strategy.limit n = n
  rewrite : ∀ text m, r.strategy.rewrite r.pattern text m = a' ++ (m.textOf text 1 ++ d :: k')

end Rule

variable {d : Char} {a a' k k' before rest text w : List Char} {b : Point} {r : Rule}

theorem forall_not_beq_iff : (∀ c ∈ w, (!(c == d)) = true) ↔ d ∉ w := by
  simp only [Bool.not_eq_true', beq_eq_false_iff_ne]
  exact ⟨fun h hmem => h d hmem rfl, fun h c hc hcd => h (hcd ▸ hc)⟩

theorem takes_enclosedRegex :
    Takes (before ++ rest).toArray (enclosedRegex d a k) ⟨before.length, []⟩ b ↔
      ∃ w rest', d ∉ w ∧ w ≠ [] ∧ rest = a ++ (w ++ d :: (k ++ rest')) ∧
        b = ⟨(before ++ (a ++ (w ++ d :: k))).length,
          [(3, (before ++ (a ++ w)).length), (2, (before ++ a).length)]⟩ := by
  simp only [enclosedRegex, takes_concat_append, takes_concat_cons, takes_group]
  constructor
  · rintro ⟨_, hopen, _, ⟨_, hplus, rfl⟩, hclose⟩
    obtain ⟨rest, rfl, rfl⟩ := (takes_literal rfl).mp hopen
    have hopened : (before ++ (a ++ rest)).toArray.toList = (before ++ a) ++ rest := by simp
    obtain ⟨w, rest, rfl, hne, hw, rfl⟩ := (takes_plus_set hopened).mp hplus
    have hkept : (before ++ (a ++ (w ++ rest))).toArray.toList = (before ++ a ++ w) ++ rest := by
      simp
    obtain ⟨rest, rfl, rfl⟩ := (takes_literal hkept).mp hclose
    exact ⟨w, rest, forall_not_beq_iff.mp hw, hne, by simp, by simp⟩
  · rintro ⟨w, rest, hw, hne, rfl, rfl⟩
    have hopened : (before ++ (a ++ (w ++ d :: (k ++ rest)))).toArray.toList =
        (before ++ a) ++ (w ++ d :: (k ++ rest)) := by simp
    have hkept : (before ++ (a ++ (w ++ d :: (k ++ rest)))).toArray.toList =
        (before ++ a ++ w) ++ ((d :: k) ++ rest) := by simp
    refine ⟨_, (takes_literal rfl).mpr ⟨_, rfl, rfl⟩, _, ⟨_, (takes_plus_set hopened).mpr
      ⟨w, _, rfl, hne, forall_not_beq_iff.mpr hw, rfl⟩, rfl⟩,
      (takes_literal hkept).mpr ⟨rest, rfl, ?_⟩⟩
    simp

theorem neverEmpty_enclosedRegex (text : Array Char) : NeverEmpty text (enclosedRegex d a k) :=
  neverEmpty_concat (List.mem_append_right _ (List.mem_cons_of_mem _ List.mem_cons_self))
    (neverEmpty_set _)

namespace Rule

theorem textOf_enclosed {m : Match} (hsaved : m.saved = [(3, (before ++ (a ++ w)).length),
    (2, (before ++ a).length)]) (rest : List Char) :
    m.textOf (before ++ (a ++ (w ++ rest))) 1 = w := by
  have hgroup : m.group? 1 = some ((before ++ a).length, (before ++ (a ++ w)).length) := by
    unfold Match.group?
    rw [hsaved]
    rfl
  have hdrop : (before ++ (a ++ (w ++ rest))).drop (before ++ a).length = w ++ rest := by
    rw [← List.append_assoc, List.drop_left]
  have hlength : (before ++ (a ++ w)).length - (before ++ a).length = w.length := by
    simp only [List.length_append]
    omega
  rw [Match.textOf, hgroup]
  dsimp only
  rw [slice, hdrop, hlength, List.take_left]

theorem Encloses.swaps (h : r.Encloses d a a' k k') : r.Swaps (Reenclosed d a a' k k') where
  total := ⟨h.limit, fun text => h.regex ▸ neverEmpty_enclosedRegex text⟩
  swap before found rest saved htakes := by
    rw [h.regex] at htakes
    obtain ⟨w, rest', hw, hne, heq, hb⟩ := takes_enclosedRegex.mp htakes
    obtain ⟨hstop, rfl⟩ := Point.mk.inj hb
    have hsame : found ++ rest = (a ++ (w ++ d :: k)) ++ rest' := by simpa using heq
    obtain ⟨rfl, -⟩ := List.append_inj hsame (by simpa using hstop)
    refine ⟨w, hw, hne, rfl, ?_⟩
    rw [h.rewrite]
    simp only [List.append_assoc]
    rw [textOf_enclosed rfl]
  starts before found new rest := by
    rintro ⟨w, hw, hne, rfl, -⟩
    refine ⟨_, h.regex ▸ takes_enclosedRegex.mpr ⟨w, rest, hw, hne, by simp, rfl⟩⟩

theorem Encloses.matchesIn_eq_nil_iff (h : r.Encloses d a a' k k') :
    r.pattern.matchesIn text = [] ↔ Unenclosed d a k text := by
  rw [h.swaps.matchesIn_eq_nil_iff]
  constructor
  · rintro hnone u ⟨w, v, hw, hne, rfl⟩
    exact hnone u _ _ v (by simp) ⟨w, hw, hne, rfl, rfl⟩
  · rintro hnone before _ _ rest rfl ⟨w, hw, hne, rfl, -⟩
    exact hnone before ⟨w, rest, hw, hne, by simp⟩

/-- What the swap of one opening word and of one closing word preserves is preserved. -/
theorem Encloses.preserves {P : List Char → Prop} (h : r.Encloses d a a' k k') (htext : P text)
    (hswap : ∀ out w rest, d ∉ w → P (out ++ (a ++ (w ++ d :: (k ++ rest)))) →
      P (out ++ (a' ++ (w ++ d :: (k' ++ rest))))) : P (r.apply text).1 := by
  refine h.swaps.preserves htext ?_
  rintro _ out _ _ rest rfl ⟨w, hw, -, rfl, rfl⟩ hp
  simpa using hswap out w rest hw (by simpa using hp)

theorem Encloses.reworded {e o o' : List Char} (h : r.Encloses d (o ++ e) (o' ++ e) k k')
    (text : List Char) : Reworded [(o, o'), (k, k')] text (r.apply text).1 := by
  refine h.preserves (.refl _ _) fun out w rest _ hold => ?_
  rw [List.append_assoc] at hold
  have hopen := hold.swap (n := o') List.mem_cons_self
  have hsplit : ∀ z, out ++ (o' ++ (e ++ (w ++ d :: (z ++ rest)))) =
      (out ++ (o' ++ (e ++ (w ++ [d])))) ++ (z ++ rest) := by simp
  rw [hsplit] at hopen
  rw [List.append_assoc o', hsplit]
  exact hopen.swap (by simp)

theorem Encloses.reworded_closing (h : r.Encloses d a a k k') (text : List Char) :
    Reworded [(d :: k, d :: k')] text (r.apply text).1 := by
  refine h.preserves (.refl _ _) fun out w rest _ hold => ?_
  have hsplit : ∀ z, out ++ (a ++ (w ++ d :: (z ++ rest))) =
      (out ++ (a ++ w)) ++ ((d :: z) ++ rest) := by simp
  rw [hsplit] at hold ⊢
  exact hold.swap List.mem_cons_self

/-- A new closing word makes no enclosed text of another kind: the opening words end differently, or
it is not the one that is looked for. -/
def ClosesApart (d : Char) (o k c l l' : List Char) : Prop :=
  (d ∉ k ∧ d ∉ l ∧ d ∉ l') ∧ (l ≠ [] ∧ l' ≠ []) ∧ Apart (o ++ [d]) l' ∧
    (Clash k l' ∨ (¬ o <:+ c ∧ ¬ c <:+ o))

instance {o c l l' : List Char} : Decidable (ClosesApart d o k c l l') :=
  inferInstanceAs (Decidable (_ ∧ _))

/-- A rule for other enclosed texts makes none by another closing word. -/
theorem Encloses.unenclosed_of_closing {c l l' o : List Char}
    (h : r.Encloses d (c ++ [d]) (c ++ [d]) l l') (hwords : ClosesApart d o k c l l')
    (htext : Unenclosed d (o ++ [d]) k text) : Unenclosed d (o ++ [d]) k (r.apply text).1 := by
  obtain ⟨⟨hk, hl, hl'⟩, ⟨hne, hne'⟩, hafter, hother⟩ := hwords
  refine h.preserves htext fun out w rest hw hold u hu => ?_
  have hsplit : ∀ z, out ++ ((c ++ [d]) ++ (w ++ d :: (z ++ rest))) =
      (out ++ c) ++ d :: (w ++ d :: (z ++ rest)) := by simp
  have hends : Clash k l' ∨ ¬ o <:+ out ++ c := hother.imp_right fun hno hsuffix =>
    (List.suffix_or_suffix_of_suffix hsuffix (List.suffix_append out c)).elim hno.1 hno.2
  rw [hsplit] at hu hold
  rcases hu.of_swap_after hw hne' hafter hk hl' hl hne hends with ⟨hu, -⟩ | ⟨z, -, hz⟩
  · exact hold u hu
  · refine hold ((out ++ (c ++ (d :: (w ++ d :: l)))) ++ z) ?_
    simpa using hz.append_left (out ++ (c ++ (d :: (w ++ d :: l))))

/-- A rule leaves nothing to find if no swap makes an enclosed text that starts in what is
written. -/
theorem Encloses.unenclosed_of_swap (h : r.Encloses d a a' k k')
    (hswap : ∀ before out w rest, text = before ++ (a ++ (w ++ d :: (k ++ rest))) → d ∉ w →
      w ≠ [] →
      (∀ u, EnclosedAt d a k u (out ++ (a ++ (w ++ d :: (k ++ rest)))) → out.length ≤ u.length) →
      ∀ u, EnclosedAt d a k u (out ++ (a' ++ (w ++ d :: (k' ++ rest)))) →
        (out ++ (a' ++ (w ++ d :: k'))).length ≤ u.length) :
    Unenclosed d a k (r.apply text).1 := by
  refine h.swaps.leaves_none (I := fun _ _ _ => True) trivial ?_ ?_ ?_
  · rintro u _ ⟨w, v, -, hne, rfl⟩
    exact ⟨a ++ (w ++ d :: (k ++ v)), by simp [hne], rfl⟩
  · rintro before out c rest - hnone -
    refine ⟨trivial, fun ⟨w, v, hw, hne, heq⟩ => ?_⟩
    have hrest : c :: rest = (a ++ (w ++ d :: k)) ++ v := by
      simpa using List.append_cancel_left heq
    exact hnone _ (a' ++ (w ++ d :: k')) v hrest ⟨w, hw, hne, rfl, rfl⟩
  · rintro before out _ _ rest htext ⟨w, hw, hne, rfl, rfl⟩ - hold
    refine ⟨trivial, fun u hu => ?_⟩
    exact hswap before out w rest (by simpa using htext) hw hne
      (fun u hu => hold u (by simpa using hu)) u (by simpa using hu)

/-! ## Closing characters that are kept -/

/-- A rule that keeps the closing character leaves nothing to find exactly if no two enclosed texts
end together. -/
theorem Encloses.unenclosed_apply_iff (h : r.Encloses d a a' [] []) (hne : a ≠ []) (ha : d ∉ a)
    (ha' : Neutral d a [] a') : Unenclosed d a [] (r.apply text).1 ↔ ¬ Nested d a [] text := by
  constructor
  · intro hnone hnested
    -- a nesting that is still to come, or an enclosed text that was left behind
    suffices hall : Nested d a [] [] ∨ ∃ u, EnclosedAt d a [] u (r.apply text).1 by
      rcases hall with hnil | ⟨u, hu⟩
      · have hle := hnil.length_le
        have hpos := List.length_pos_iff.mpr hne
        rw [List.length_nil] at hle
        omega
      · exact hnone u hu
    refine h.swaps.apply (Q := fun _ out rest =>
      Nested d a [] rest ∨ ∃ u, EnclosedAt d a [] u out) (.inl hnested) ?_ ?_
    · intro before out c rest _ hgap hq
      rcases hq with hq | ⟨u, w, v, hw, hne', rfl⟩
      · obtain ⟨u, w, w₂, v, hw, hw₂, hne₂, heq⟩ := (nested_iff ha).mp hq
        rcases u with _ | ⟨e, u⟩
        · refine absurd ⟨w ++ (a ++ w₂), by simp [hw, ha, hw₂], by simp [hne], rfl, rfl⟩
            (hgap (a ++ (w ++ (a ++ w₂) ++ [d])) (a' ++ (w ++ (a ++ w₂) ++ [d])) v ?_)
          simpa using heq
        · obtain ⟨rfl, hrest⟩ := List.cons.inj heq
          exact .inl ((nested_iff ha).mpr ⟨u, w, w₂, v, hw, hw₂, hne₂, hrest⟩)
      · exact .inr ⟨u, w, v ++ [c], hw, hne', by simp⟩
    · rintro before out _ _ rest - ⟨w₀, hw₀, -, rfl, rfl⟩ hq
      rcases hq with hnested | ⟨u, w, v, hw, hne', rfl⟩
      · have hsplit : Nested d a [] (a ++ (w₀ ++ d :: rest)) := by simpa using hnested
        rcases hsplit.of_enclosed ha hw₀ with hrest | ⟨z, hz⟩
        · exact .inl hrest
        · exact .inr ⟨_, (hz.append_left a').append_left out⟩
      · exact .inr ⟨u, w, v ++ (a' ++ (w₀ ++ [d])), hw, hne', by simp⟩
  · intro hnested
    refine h.unenclosed_of_swap fun before out w rest htext hw hne' hold u hu => ?_
    rcases hu.of_swap ha' (fun _ => ⟨ha, hne⟩) with ⟨hu, z, rfl⟩ | ⟨z, rfl, hz⟩
    · have hle := hold u hu
      have hpos := List.length_pos_iff.mpr hne
      simp only [List.length_append] at hle
      omega
    · have ⟨w₂, v, hw₂, hne₂, heq⟩ := hz
      rcases append_cons_cases heq hw with ⟨s, rfl, -⟩ | hdz
      · simp only [List.length_append, List.length_cons, List.length_nil]
        omega
      · refine absurd ⟨before, z, hdz, ⟨w, rest, hw, hne', htext⟩, ?_⟩ hnested
        rw [htext]
        simpa using hz.append_left (before ++ a)

/-! ## Opening words with the closing character -/

/-- The words `o'` and `k'` neither are the words `o` and `k` that they replace nor overlap with
them, but the opening word may be kept. -/
def Separate (d : Char) (o o' k k' : List Char) : Prop :=
  (d ∉ o ∧ d ∉ k ∧ d ∉ k') ∧ o ≠ [] ∧ Clash k k' ∧ Apart (o ++ [d]) k' ∧
    (o' = o ∨ Neutral d (o ++ [d]) k o')

instance {o o' : List Char} : Decidable (Separate d o o' k k') :=
  inferInstanceAs (Decidable (_ ∧ _))

/-- A rule whose opening word ends with the closing character leaves nothing to find if no enclosed
text starts with the end of another one. -/
theorem Encloses.unenclosed_apply {o o' : List Char}
    (h : r.Encloses d (o ++ [d]) (o' ++ [d]) k k') (hwords : Separate d o o' k k')
    (hnested : ¬ Nested d (o ++ [d]) k text) : Unenclosed d (o ++ [d]) k (r.apply text).1 := by
  obtain ⟨⟨ho, hk, hk'⟩, hne, hclash, hafter, hopen⟩ := hwords
  have hnil : k ≠ [] := fun hnil => hclash.1 (hnil ▸ List.nil_prefix)
  have hnil' : k' ≠ [] := fun hnil => hclash.2 (hnil ▸ List.nil_prefix)
  refine h.unenclosed_of_swap fun before out w rest htext hw hne' hold u hu => ?_
  have hinner : ∀ s z, w ++ [d] = s ++ (o ++ d :: z) →
      ¬ EnclosedAt d (o ++ [d]) k s (w ++ d :: (k ++ rest)) := by
    intro s z heq hs
    rcases append_cons_cases heq hw with ⟨t, -, ht⟩ | hds
    · simp at ht
    · refine hnested ⟨before, s, hds, ⟨w, rest, hw, hne', htext⟩, ?_⟩
      rw [htext]
      simpa using hs.append_left (before ++ (o ++ [d]))
  have hsplit : ∀ x y, out ++ (x ++ [d] ++ y) = (out ++ x) ++ d :: y := by simp
  have hnew := hu
  rw [hsplit] at hu
  rcases hu.of_swap_after hw hnil' hafter hk hk' hk hnil (.inl hclash) with
    ⟨hu, z, hz⟩ | ⟨z, rfl, -⟩
  swap
  · simp only [List.length_append, List.length_cons, List.length_nil]
    omega
  rcases hopen with rfl | hopen
  · have hle := hold u (by rwa [hsplit])
    rw [List.append_assoc] at hu hz
    rcases append_cases hz with ⟨s, rfl, hs⟩ | ⟨s, rfl, -, hne'⟩
    swap
    · have hpos := List.length_pos_iff.mpr hne'
      rw [List.length_append] at hle
      omega
    · rcases append_cons_cases hs ho with ⟨t, rfl, ht⟩ | hds
      · have hinside : EnclosedAt d (o' ++ [d]) k t (w ++ d :: (k ++ rest)) := by
          refine EnclosedAt.of_append_left (x := out ++ (o' ++ [d])) ?_
          simpa using hu
        exact absurd hinside (hinner t z ht)
      · -- the opening word is the one that was kept, and another closing word stands after it
        have hopened : o' ++ d :: (w ++ [d]) = (s ++ o') ++ d :: z := by simpa using hs
        obtain ⟨hsame, -⟩ := append_cons_inj' hopened ho (by simp [hds, ho])
        obtain rfl : s = [] := by simpa using hsame
        obtain ⟨w₁, v, hw₁, -, heq⟩ := hnew
        have hclosed : w ++ d :: (k' ++ rest) = w₁ ++ d :: (k ++ v) := by simpa using heq
        obtain ⟨-, hafter⟩ := append_cons_inj' hclosed hw hw₁
        exact absurd hafter.symm (hclash.append_ne v rest)
  · rw [List.append_assoc] at hu
    rcases hu.of_swap hopen (fun _ => ⟨ho, hne⟩) with ⟨hu, t, rfl⟩ | ⟨s, rfl, hs⟩
    · have hle := hold u (by simpa using hu)
      simp only [List.length_append, List.length_cons] at hle
      omega
    · rw [List.append_assoc, List.append_assoc, List.append_assoc, List.append_cancel_left_eq,
        List.append_cancel_left_eq] at hz
      rcases s with _ | ⟨c, s⟩
      · obtain ⟨c, o, rfl⟩ := List.exists_cons_of_ne_nil hne
        obtain ⟨rfl, -⟩ := List.cons.inj hz
        simp at ho
      · obtain ⟨rfl, htail⟩ := List.cons.inj hz
        exact absurd (EnclosedAt.of_append_left (x := [_]) hs) (hinner s z htail)

end Rule

end Amend
