import Amend.Proofs.Pattern.Context
import Amend.Proofs.Rule.Application

/-!
# A rule on its way through a text

A rule without a bound goes through a text from left to right: it keeps a character where no match
starts, and rewrites a match where one does. What each of these steps preserves holds in the end
(`Rule.apply_passage`).
-/

set_option autoImplicit false

namespace Amend

open Regex

/-- A match starts between the two parts of a text. -/
def Pattern.Starts (p : Pattern) (before rest : List Char) : Prop :=
  ∃ b, Takes (before ++ rest).toArray p.regex ⟨before.length, []⟩ b

theorem Pattern.matchesIn_eq_nil_iff_not_starts {p : Pattern} {text : List Char} :
    p.matchesIn text = [] ↔ ∀ before rest, text = before ++ rest → ¬ p.Starts before rest := by
  rw [Pattern.matchesIn_eq_nil_iff]
  constructor
  · rintro h before rest rfl ⟨b, hb⟩
    exact h _ (by simp) b hb
  · intro h i hi b hb
    have hsplit := List.take_append_drop i text
    refine h _ _ hsplit.symm ⟨b, ?_⟩
    rwa [hsplit, List.length_take_of_le hi]

namespace Rule

/-- The rule rewrites all matches, and none of them is empty. -/
structure Total (r : Rule) : Prop where
  limit : ∀ n, r.strategy.limit n = n
  neverEmpty : ∀ text, NeverEmpty text r.pattern.regex

/-- What is preserved on the way through a text: `before` was read, `out` was written, and `rest` is
still to be read. -/
structure Passage (r : Rule) (text : List Char) (Q : List Char → List Char → List Char → Prop) :
    Prop where
  start : Q [] [] text
  keep : ∀ before out c rest, text = before ++ c :: rest → ¬ r.pattern.Starts before (c :: rest) →
    Q before out (c :: rest) → Q (before ++ [c]) (out ++ [c]) rest
  rewrite : ∀ before out found rest saved, text = before ++ (found ++ rest) →
    Takes text.toArray r.pattern.regex ⟨before.length, []⟩ ⟨(before ++ found).length, saved⟩ →
    Q before out (found ++ rest) →
    Q (before ++ found) (out ++ r.strategy.rewrite r.pattern text
      ⟨before.length, (before ++ found).length, saved⟩) rest

variable {r : Rule} {text : List Char} {Q : List Char → List Char → List Char → Prop}

/-- Where no match starts all is kept. -/
theorem Passage.keep_gap (h : r.Passage text Q) {before out : List Char} (gap rest : List Char)
    (htext : text = before ++ (gap ++ rest))
    (hgap : ∀ i, before.length ≤ i → i < before.length + gap.length →
      ∀ b, ¬ Takes text.toArray r.pattern.regex ⟨i, []⟩ b)
    (hq : Q before out (gap ++ rest)) : Q (before ++ gap) (out ++ gap) rest := by
  induction gap generalizing before out with
  | nil => simpa using hq
  | cons c gap ih =>
    have hnone : ¬ r.pattern.Starts before (c :: (gap ++ rest)) := by
      rintro ⟨b, hb⟩
      exact hgap before.length (Nat.le_refl _) (by simp) b (htext ▸ hb)
    have hnext := h.keep before out c (gap ++ rest) htext hnone hq
    have hall := ih (by rw [htext, List.append_assoc]; rfl) (fun i hi hlt => by
      rw [List.length_append, List.length_singleton] at hi hlt
      exact hgap i (by omega) (by rw [List.length_cons]; omega)) hnext
    simpa using hall

theorem Passage.splice (h : r.Passage text Q) {before out rest : List Char} {ms : List Match}
    (hscan : Scan text.toArray r.pattern.regex before.length ms) (htext : text = before ++ rest)
    (hq : Q before out rest) :
    Q text (out ++ Amend.splice before.length rest (ms.map fun m =>
      ⟨m.start, m.stop, r.strategy.rewrite r.pattern text m⟩)) [] := by
  induction ms generalizing before out rest with
  | nil =>
    cases hscan with
    | done hnone =>
      have hsize : text.toArray.size = before.length + rest.length := by simp [htext]
      have hend := h.keep_gap rest [] (by rw [htext, List.append_nil])
        (fun i hi hlt => hnone i hi (by omega)) (by rwa [List.append_nil])
      rwa [← htext] at hend
  | cons m ms ih =>
    cases hscan with
    | found hle hm htakes hskip hrest =>
      have hsize : text.toArray.size = before.length + rest.length := by simp [htext]
      have hstop : m.stop ≤ text.toArray.size := htakes.pos_le_size hm
      have hspan : m.start ≤ m.stop := htakes.pos_le
      obtain ⟨gap, found, rest, rfl, hgap, hfound⟩ : ∃ gap found rest',
          rest = gap ++ (found ++ rest') ∧ before.length + gap.length = m.start ∧
            m.start + found.length = m.stop := by
        refine ⟨rest.take (m.start - before.length),
          (rest.drop (m.start - before.length)).take (m.stop - m.start),
          (rest.drop (m.start - before.length)).drop (m.stop - m.start), ?_, ?_, ?_⟩
        · rw [List.take_append_drop, List.take_append_drop]
        · rw [List.length_take_of_le (by omega)]
          omega
        · rw [List.length_take_of_le (by rw [List.length_drop]; omega)]
          omega
      have hkept := h.keep_gap gap (found ++ rest) htext
        (fun i hi hlt => hskip i hi (by omega)) hq
      have hsplit : text = (before ++ gap) ++ (found ++ rest) := by rw [htext, List.append_assoc]
      have hstart : (before ++ gap).length = m.start := by rw [List.length_append, hgap]
      have hend : (before ++ gap ++ found).length = m.stop := by
        rw [List.length_append, hstart, hfound]
      have hnew := h.rewrite (before ++ gap) (out ++ gap) found rest m.saved hsplit
        (by rwa [hstart, hend]) hkept
      rw [hstart, hend] at hnew
      have hall := ih (by rwa [hend]) (by simp [hsplit]) hnew
      rw [hend] at hall
      have htake : (gap ++ (found ++ rest)).take (m.start - before.length) = gap := by
        rw [← hgap, Nat.add_sub_cancel_left, List.take_left]
      have hdrop : (gap ++ (found ++ rest)).drop (m.stop - before.length) = rest := by
        rw [← List.append_assoc, ← hfound, ← hgap, Nat.add_assoc, Nat.add_sub_cancel_left,
          ← List.length_append, List.drop_left]
      rw [List.map_cons, Amend.splice, htake, hdrop]
      simpa using hall

/-- What is preserved on the way holds in the end. -/
theorem apply_passage (hr : r.Total) (h : r.Passage text Q) : Q text (r.apply text).1 [] := by
  have hscan :
      Scan text.toArray r.pattern.regex ([] : List Char).length (r.pattern.matchesIn text) :=
    r.pattern.scan_matchesIn text (hr.neverEmpty _)
  have hall := h.splice hscan rfl h.start
  unfold apply edits
  simpa [hr.limit] using hall

/-! ## What a rule swaps -/

/-- The rule swaps `found` for `new` wherever `M before found new rest`, where `before` and `rest`
are what is around. -/
structure Swaps (r : Rule) (M : List Char → List Char → List Char → List Char → Prop) : Prop where
  total : r.Total
  swap : ∀ before found rest saved,
    Takes (before ++ (found ++ rest)).toArray r.pattern.regex ⟨before.length, []⟩
      ⟨(before ++ found).length, saved⟩ →
    M before found (r.strategy.rewrite r.pattern (before ++ (found ++ rest))
      ⟨before.length, (before ++ found).length, saved⟩) rest
  starts : ∀ before found new rest, M before found new rest →
    r.pattern.Starts before (found ++ rest)

variable {M : List Char → List Char → List Char → List Char → Prop}

theorem Swaps.starts_iff (h : r.Swaps M) {before rest : List Char} :
    r.pattern.Starts before rest ↔
      ∃ found new rest', rest = found ++ rest' ∧ M before found new rest' := by
  constructor
  · rintro ⟨⟨stop, saved⟩, hb⟩
    have hle : before.length ≤ stop := hb.pos_le
    have hsize : stop ≤ (before ++ rest).toArray.size := hb.pos_le_size (by simp)
    obtain ⟨k, rfl⟩ := Nat.exists_eq_add_of_le hle
    have hsplit := (List.take_append_drop k rest).symm
    have hk : (before ++ rest.take k).length = before.length + k := by
      rw [List.length_append, List.length_take_of_le (by simp at hsize; omega)]
    rw [hsplit, ← hk] at hb
    exact ⟨_, _, _, hsplit, h.swap _ _ _ _ hb⟩
  · rintro ⟨found, new, rest', rfl, hm⟩
    exact h.starts _ _ _ _ hm

/-- The rule finds nothing exactly where there is nothing to swap. -/
theorem Swaps.matchesIn_eq_nil_iff (h : r.Swaps M) : r.pattern.matchesIn text = [] ↔
    ∀ before found new rest, text = before ++ (found ++ rest) → ¬ M before found new rest := by
  rw [Pattern.matchesIn_eq_nil_iff_not_starts]
  simp only [h.starts_iff]
  constructor
  · rintro hnone before found new rest rfl hm
    exact hnone before _ rfl ⟨found, new, rest, rfl, hm⟩
  · rintro hnone before _ htext ⟨found, new, rest, rfl, hm⟩
    exact hnone before found new rest htext hm

/-- What each swap preserves, and each character that is kept because no swap is to be made there,
holds in the end. -/
theorem Swaps.apply (h : r.Swaps M) (hstart : Q [] [] text)
    (hkeep : ∀ before out c rest, text = before ++ c :: rest →
      (∀ found new rest', c :: rest = found ++ rest' → ¬ M before found new rest') →
      Q before out (c :: rest) → Q (before ++ [c]) (out ++ [c]) rest)
    (hswap : ∀ before out found new rest, text = before ++ (found ++ rest) →
      M before found new rest → Q before out (found ++ rest) →
      Q (before ++ found) (out ++ new) rest) : Q text (r.apply text).1 [] := by
  refine apply_passage h.total ⟨hstart, fun before out c rest htext hnone => ?_,
    fun before out found rest saved htext htakes => ?_⟩
  · refine hkeep before out c rest htext fun found new rest' heq hm => hnone ?_
    exact h.starts_iff.mpr ⟨found, new, rest', heq, hm⟩
  · subst htext
    exact hswap before out found _ rest rfl (h.swap before found rest saved htakes)

/-- What each swap preserves of the text as a whole is preserved. -/
theorem Swaps.preserves {P : List Char → Prop} (h : r.Swaps M) (htext : P text)
    (hswap : ∀ before out found new rest, text = before ++ (found ++ rest) →
      M before found new rest → P (out ++ (found ++ rest)) → P (out ++ (new ++ rest))) :
    P (r.apply text).1 := by
  have hall := h.apply (Q := fun _ out rest => P (out ++ rest)) htext
    (fun before out c rest _ _ hq => by simpa using hq)
    (fun before out found new rest heq hm hq => by
      rw [List.append_assoc]
      exact hswap before out found new rest heq hm hq)
  simpa using hall

/-- Nothing that is looked for is left if none of it starts in what is written: neither at a
character that is kept, nor before the end of what is swapped in. `S u t` says that it starts after
`u` in `t`, and `I` is what else is known on the way. -/
theorem Swaps.leaves_none {S : List Char → List Char → Prop}
    {I : List Char → List Char → List Char → Prop} (h : r.Swaps M) (hstart : I [] [] text)
    (hsplit : ∀ u t, S u t → ∃ v, v ≠ [] ∧ t = u ++ v)
    (hkeep : ∀ before out c rest, text = before ++ c :: rest →
      (∀ found new rest', c :: rest = found ++ rest' → ¬ M before found new rest') →
      I before out (c :: rest) →
      I (before ++ [c]) (out ++ [c]) rest ∧ ¬ S out (out ++ c :: rest))
    (hswap : ∀ before out found new rest, text = before ++ (found ++ rest) →
      M before found new rest → I before out (found ++ rest) →
      (∀ u, S u (out ++ (found ++ rest)) → out.length ≤ u.length) →
      I (before ++ found) (out ++ new) rest ∧
        ∀ u, S u ((out ++ new) ++ rest) → (out ++ new).length ≤ u.length) :
    ∀ u, ¬ S u (r.apply text).1 := by
  have hall := h.apply (Q := fun before out rest => I before out rest ∧
    ∀ u, S u (out ++ rest) → out.length ≤ u.length) ⟨hstart, fun _ _ => Nat.zero_le _⟩
    (fun before out c rest htext hgap ⟨hinv, hold⟩ => ?_)
    (fun before out found new rest htext hm ⟨hinv, hold⟩ =>
      hswap before out found new rest htext hm hinv hold)
  · intro u hu
    obtain ⟨v, hne, heq⟩ := hsplit u _ hu
    have hle := hall.2 u (by simpa using hu)
    have hlength := congrArg List.length heq
    have hpos := List.length_pos_iff.mpr hne
    rw [List.length_append] at hlength
    omega
  · obtain ⟨hnext, hno⟩ := hkeep before out c rest htext hgap hinv
    refine ⟨hnext, fun u hu => ?_⟩
    rw [List.append_assoc] at hu
    rw [List.length_append]
    refine Nat.lt_of_le_of_ne (hold u hu) fun hlength => ?_
    obtain ⟨v, -, heq⟩ := hsplit u _ hu
    obtain ⟨rfl, -⟩ := List.append_inj heq hlength
    exact hno hu

/-! ## Rules that have nothing to do -/

theorem count_apply_of_limit (h : ∀ n, r.strategy.limit n = n) (text : List Char) :
    (r.apply text).2 = (r.pattern.matchesIn text).length := by
  unfold apply edits
  simp [h]

/-- Rules without a bound do nothing exactly where none of them finds anything. -/
theorem applyAll_eq_self_iff {rs : List Rule} (h : ∀ r ∈ rs, ∀ n, r.strategy.limit n = n) :
    applyAll rs text = ⟨text, [], 0⟩ ↔ ∀ r ∈ rs, r.pattern.matchesIn text = [] := by
  refine ⟨fun hidle => ?_, applyAll_of_matchesIn_eq_nil⟩
  induction rs with
  | nil => exact nofun
  | cons r rs ih =>
    have hcount := count_apply_of_limit (h r List.mem_cons_self) text
    have hzero : (r.apply text).2 = 0 := by
      by_contra hfires
      rw [applyAll_cons_of_fires hfires] at hidle
      exact List.cons_ne_nil _ _ (congrArg Rewrite.applied hidle)
    rw [applyAll_cons_of_idle hzero] at hidle
    rw [hzero, eq_comm, List.length_eq_zero_iff] at hcount
    exact List.forall_mem_cons.mpr ⟨hcount, ih (fun r hr => h r (List.mem_cons_of_mem _ hr)) hidle⟩

end Rule

end Amend
