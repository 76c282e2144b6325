import Amend.Proofs.Rule.TrimRules

/-!
# Words that stand alone

A rule may put a word in the place of another one where no word goes on before or after it
(`Rule.Rewords`). If the words cannot overlap, it leaves nothing to find
(`Rule.Rewords.not_alone_apply`). Such words in the place of each other make no import, no item of a
list and no other word that stands alone (`Reworded.not_imports`, `Reworded.not_listed`,
`Reworded.not_alone`).
-/

set_option autoImplicit false

namespace Amend

open Regex

variable {before rest text text' m n o t u v w x y z : List Char} {b : Point} {r : Rule}

/-! ## Words between boundaries -/

/-- The word begins and ends with a character of words. -/
def Whole (w : List Char) : Prop :=
  w.head?.any Unicode.isWord = true ∧ EndsWord w

instance : Decidable (Whole w) :=
  inferInstanceAs (Decidable (_ ∧ _))

/-- No word comes right before. -/
def NoWordBefore (before : List Char) : Prop :=
  before.getLast?.any Unicode.isWord = false

/-- The word is somewhere in the text, and no word goes on before or after it. -/
def Alone (v text : List Char) : Prop :=
  ∃ u w, text = u ++ (v ++ w) ∧ NoWordBefore u ∧ NoWord w

namespace Whole

theorem not_noWord (h : Whole n) (y : List Char) : ¬ NoWord (n ++ y) := by
  have hne : n ≠ [] := h.2.ne_nil
  intro hno
  rw [NoWord, List.head?_append_of_ne_nil _ hne, h.1] at hno
  cases hno

theorem not_noWordBefore (h : Whole n) (x : List Char) : ¬ NoWordBefore (x ++ n) := by
  intro hno
  rw [NoWordBefore, List.getLast?_append_of_ne_nil _ h.2.ne_nil, h.2] at hno
  cases hno

theorem noWord_of_swap (h : Whole n) (hno : NoWord (t ++ (n ++ y))) : NoWord (t ++ (m ++ y)) := by
  rcases t with _ | ⟨c, t⟩
  · exact absurd hno (h.not_noWord y)
  · exact hno

theorem noWordBefore_of_swap (h : Whole n) (hno : NoWordBefore (x ++ (n ++ t))) :
    NoWordBefore (x ++ (m ++ t)) := by
  rcases eq_or_ne t [] with rfl | ht
  · rw [List.append_nil] at hno
    exact absurd hno (h.not_noWordBefore x)
  · simp only [NoWordBefore, ← List.append_assoc, List.getLast?_append_of_ne_nil _ ht] at hno ⊢
    exact hno

end Whole

/-! ## What whole words do not bring about -/

theorem Alone.of_swap (hv : Apart v n) (hn : Whole n) (h : Alone v (x ++ (n ++ y))) :
    Alone v (x ++ (m ++ y)) := by
  obtain ⟨u, w, heq, hu, hw⟩ := h
  rcases hv.cases heq with ⟨t, rfl, rfl⟩ | ⟨t, rfl, rfl⟩
  · exact ⟨u, t ++ (m ++ y), by simp, hu, hn.noWord_of_swap hw⟩
  · exact ⟨x ++ (m ++ t), w, by simp, hn.noWordBefore_of_swap hu, hw⟩

theorem Listed.of_swap (ho : Apart o n) (hw : Apart w n) (hn : Whole n) (hm : '}' ∉ m)
    (h : Listed o w (x ++ (n ++ y))) : Listed o w (x ++ (m ++ y)) := by
  obtain ⟨u, s, v, heq, hs, hv⟩ := h
  rcases ho.cases heq with ⟨t, rfl, ht⟩ | ⟨t, rfl, rfl⟩
  · rcases hw.cases ht.symm with ⟨z, rfl, rfl⟩ | ⟨z, rfl, rfl⟩
    · exact ⟨u, s, z ++ (m ++ y), by simp, hs, hn.noWord_of_swap hv⟩
    · simp only [List.mem_append, not_or] at hs
      exact ⟨u, t ++ (m ++ z), v, by simp, by simp [hs, hm], hv⟩
  · exact ⟨x ++ (m ++ t), s, v, by simp, hs, hv⟩

/-- After the keyword an import has no space, and a line break at its end only. -/
theorem ImportLine.exists_eq {p l : List Char} (h : ImportLine p l) :
    ∃ k, l = useWord ++ (k ++ ['\n']) ∧ ' ' ∉ k ∧ '\n' ∉ k := by
  obtain ⟨hp, e, he, rfl⟩ := h
  have hspace : ' ' ∉ p := notMem_of_isPathChar hp (by decide)
  have hbreak : '\n' ∉ p := notMem_of_isPathChar hp (by decide)
  rcases he with rfl | rfl
  · exact ⟨p ++ [';'], by simp, by simp [hspace], by simp [hbreak]⟩
  · exact ⟨p ++ [';', '\r'], by simp, by simp [hspace], by simp [hbreak]⟩

theorem Imports.of_swap {kind : List Char → Prop} (huse : Apart useWord n) (hspace : ' ' ∈ n)
    (hbreak : '\n' ∉ n) (h : Imports kind (x ++ (n ++ y))) : Imports kind (x ++ (m ++ y)) := by
  obtain ⟨x', p, l, y', hx', hkind, hl, heq⟩ := h
  obtain ⟨k, rfl, hk, hk'⟩ := hl.exists_eq
  rcases huse.cases (v := useWord) (w := k ++ '\n' :: y') (by simpa using heq) with
    ⟨t, rfl, ht⟩ | ⟨t, rfl, rfl⟩
  · have hline : ∃ z, t = k ++ '\n' :: z ∧ y' = z ++ (n ++ y) := by
      rcases append_cons_cases ht hk' with hbefore | hnone
      · exact hbefore
      · -- the line does not end before the word or in it, and the word has a space
        have hpart : '\n' ∉ t ++ n := by simp [hnone, hbreak]
        rw [← List.append_assoc] at ht
        rcases append_cases ht with ⟨s, hs, hbreaks⟩ | ⟨s, rfl, -, -⟩
        · rcases s with _ | ⟨c, s⟩
          · rw [List.append_nil] at hs
            exact absurd (hs ▸ List.mem_append_right t hspace) hk
          · obtain ⟨rfl, -⟩ := List.cons.inj hbreaks
            exact absurd (hs ▸ by simp) hpart
        · exact absurd (by simp [hspace]) hk
    obtain ⟨z, rfl, rfl⟩ := hline
    exact ⟨x', p, _, z ++ (m ++ y), hx', hkind, hl, by simp⟩
  · refine ⟨x ++ (m ++ t), p, _, y', ?_, hkind, hl, by simp⟩
    rcases eq_or_ne t [] with rfl | ht
    · have hne : n ≠ [] := List.ne_nil_of_mem hspace
      rw [List.append_nil] at hx'
      exact absurd (mem_of_atLineStart hx' hne) hbreak
    · simp only [← List.append_assoc, List.getLast?_append_of_ne_nil _ ht] at hx' ⊢
      exact hx'

namespace Reworded

variable {swaps : List (List Char × List Char)}

theorem not_alone (h : Reworded swaps text text') (hswaps : ∀ s ∈ swaps, Apart v s.2 ∧ Whole s.2)
    (htext : ¬ Alone v text) : ¬ Alone v text' :=
  h.preserves (P := fun text => ¬ Alone v text)
    (fun s hs _ _ hold hnew => hold (hnew.of_swap (hswaps s hs).1 (hswaps s hs).2)) htext

theorem not_listed (h : Reworded swaps text text')
    (hswaps : ∀ s ∈ swaps, (Apart o s.2 ∧ Apart w s.2) ∧ Whole s.2 ∧ '}' ∉ s.1)
    (htext : ¬ Listed o w text) : ¬ Listed o w text' :=
  h.preserves (P := fun text => ¬ Listed o w text) (fun s hs _ _ hold hnew =>
    have ⟨⟨ho, hw⟩, hwhole, hbrace⟩ := hswaps s hs
    hold (hnew.of_swap ho hw hwhole hbrace)) htext

theorem not_imports {kind : List Char → Prop} (h : Reworded swaps text text')
    (hswaps : ∀ s ∈ swaps, Apart useWord s.2 ∧ ' ' ∈ s.2 ∧ '\n' ∉ s.2)
    (htext : ¬ Imports kind text) : ¬ Imports kind text' :=
  h.preserves (P := fun text => ¬ Imports kind text) (fun s hs _ _ hold hnew =>
    have ⟨huse, hspace, hbreak⟩ := hswaps s hs
    hold (hnew.of_swap huse hspace hbreak)) htext

end Reworded

/-! ## Rules for words that stand alone -/

/-- The expression for a word between boundaries. -/
def aloneRegex (v : List Char) : Regex :=
  concat (.assert (.wordBoundary .unicode) :: ((v.map fun c => .set (· == c)) ++
    [.assert (.wordBoundary .unicode)]))

theorem takes_aloneRegex (hv : Whole v) :
    Takes (before ++ rest).toArray (aloneRegex v) ⟨before.length, []⟩ b ↔
      NoWordBefore before ∧ ∃ rest', rest = v ++ rest' ∧ NoWord rest' ∧
        b = ⟨(before ++ v).length, []⟩ := by
  have hbound : ∀ rest', (Assertion.wordBoundary .unicode).holds before.getLast?
      (v ++ rest').head? = true ↔ NoWordBefore before := by
    intro rest'
    have hhead : (v ++ rest').head?.any Unicode.isWord = true := by
      rw [List.head?_append_of_ne_nil _ hv.2.ne_nil, hv.1]
    have hholds : (Assertion.wordBoundary .unicode).holds before.getLast? (v ++ rest').head? =
        (before.getLast?.any Unicode.isWord != true) := hhead ▸ rfl
    rw [hholds]
    simp [NoWordBefore]
  simp only [aloneRegex, takes_concat_cons, takes_concat_append, takes_concat_nil,
    exists_eq_right']
  constructor
  · rintro ⟨_, hstart, _, hword, hends⟩
    obtain ⟨hholds, rfl⟩ := (takes_assert_of_split rfl).mp hstart
    obtain ⟨rest', rfl, rfl⟩ := (takes_literal rfl).mp hword
    have hended : (before ++ (v ++ rest')).toArray.toList = (before ++ v) ++ rest' := by simp
    obtain ⟨hrest, rfl⟩ := (hv.2.takes_boundary hended).mp hends
    exact ⟨(hbound rest').mp hholds, rest', rfl, hrest, rfl⟩
  · rintro ⟨hstart, rest', rfl, hrest, rfl⟩
    exact ⟨_, (takes_assert_of_split rfl).mpr ⟨(hbound rest').mpr hstart, rfl⟩, _,
      (takes_literal rfl).mpr ⟨rest', rfl, rfl⟩,
      (hv.2.takes_boundary (by simp)).mpr ⟨hrest, rfl⟩⟩

namespace Rule

/-- The rule puts the word `n` in the place of `v` where this stands alone. -/
structure Rewords (r : Rule) (v n : List Char) : Prop where
  regex : r.pattern.regex = aloneRegex v
  whole : Whole v
  limit : ∀ k, r.strategy.limit k = k
  rewrite : ∀ text m, r.strategy.rewrite r.pattern text m = n

namespace Rewords

theorem swaps (h : r.Rewords v n) : r.Swaps fun before found new rest =>
    NoWordBefore before ∧ found = v ∧ new = n ∧ NoWord rest where
  total := by
    refine ⟨h.limit, fun text => ?_⟩
    obtain ⟨c, v, rfl⟩ := List.exists_cons_of_ne_nil h.whole.2.ne_nil
    rw [h.regex]
    exact neverEmpty_concat (List.mem_cons_of_mem _ List.mem_cons_self) (neverEmpty_set _)
  swap before found rest saved htakes := by
    rw [h.regex] at htakes
    obtain ⟨hstart, rest', heq, hrest, hb⟩ := (takes_aloneRegex h.whole).mp htakes
    obtain ⟨hstop, -⟩ := Point.mk.inj hb
    obtain ⟨rfl, rfl⟩ := List.append_inj heq (by simpa using hstop)
    exact ⟨hstart, rfl, h.rewrite _ _, hrest⟩
  starts before found new rest := by
    rintro ⟨hstart, rfl, -, hrest⟩
    exact ⟨_, h.regex ▸ (takes_aloneRegex h.whole).mpr ⟨hstart, rest, rfl, hrest, rfl⟩⟩

theorem matchesIn_eq_nil_iff (h : r.Rewords v n) :
    r.pattern.matchesIn text = [] ↔ ¬ Alone v text := by
  rw [h.swaps.matchesIn_eq_nil_iff]
  constructor
  · rintro hnone ⟨u, w, heq, hu, hw⟩
    exact hnone u v n w heq ⟨hu, rfl, rfl, hw⟩
  · rintro hnone before _ _ rest heq ⟨hstart, rfl, -, hrest⟩
    exact hnone ⟨before, rest, heq, hstart, hrest⟩

theorem reworded (h : r.Rewords v n) (text : List Char) :
    Reworded [(v, n)] text (r.apply text).1 := by
  refine h.swaps.preserves (.refl _ _) ?_
  rintro before out _ _ rest - ⟨-, rfl, rfl, -⟩ hold
  exact hold.swap List.mem_cons_self

theorem not_alone_apply (h : r.Rewords v n) (hv : Apart v n) (hn : Whole n) (text : List Char) :
    ¬ Alone v (r.apply text).1 := by
  rintro ⟨u, w, heq, hu, hw⟩
  -- no word ends in what is written where one ends in what was read
  refine h.swaps.leaves_none (S := fun u t => ∃ w, t = u ++ (v ++ w) ∧ NoWordBefore u ∧ NoWord w)
    (I := fun before out _ => NoWordBefore out → NoWordBefore before) (fun hstart => hstart)
    ?_ ?_ ?_ u ⟨w, heq, hu, hw⟩
  · rintro u _ ⟨w, rfl, -, -⟩
    exact ⟨v ++ w, by simp [h.whole.2.ne_nil], rfl⟩
  · rintro before out c rest - hnone hout
    refine ⟨by simp [NoWordBefore], fun ⟨w, heq, hu, hw⟩ => ?_⟩
    exact hnone v n w (List.append_cancel_left heq) ⟨hout hu, rfl, rfl, hw⟩
  · rintro before out found new rest - ⟨-, hfound, hnew, -⟩ - hold
    rw [hfound] at hold
    rw [hnew]
    refine ⟨fun hout => absurd hout (hn.not_noWordBefore out), fun u ⟨w, heq, hu, hw⟩ => ?_⟩
    rw [List.append_assoc] at heq
    rcases hv.cases heq with ⟨z, rfl, rfl⟩ | ⟨z, rfl, -⟩
    · have hle := hold u ⟨z ++ (v ++ rest), by simp, hu, hn.noWord_of_swap hw⟩
      have hpos := List.length_pos_iff.mpr h.whole.2.ne_nil
      simp only [List.length_append] at hle
      omega
    · simp only [List.length_append]
      omega

end Rewords

end Rule

end Amend
