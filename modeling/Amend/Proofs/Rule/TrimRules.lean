import Amend.Proofs.Rule.Enclosing
import Amend.Proofs.Rule.Replacing
import Amend.Proofs.Trimming

/-!
# Rules that trim

Rules may take out the lines that import a path (`Rule.RemovesImports`), an item of a list
(`Rule.Unlists`), or an item wherever it stands (`Rule.Replaces` with nothing). Such a rule trims
the text, and leaves nothing to find if the text is tidy (`Rule.Tidies`), also where others of them
come after it (`Rule.Tidies.matchesIn_applyAll`).
-/

set_option autoImplicit false

namespace Amend

open Regex

variable {kind : List Char → Prop} {path : List Regex} {before rest text o u v w : List Char}
  {b : Point} {r : Rule} {L : Leftovers}

/-! ## Lines with an import -/

/-- What an import is made up of after the start of a line, given the expressions for its path. -/
def importParts (path : List Regex) : List Regex :=
  (useWord.map fun c => .set (· == c)) ++ (path ++
    [.set (· == ';'), .upTo true (.set (· == '\r')) 1, .set (· == '\n')])

/-- The expression for lines that import a path. -/
def importRegex (path : List Regex) : Regex :=
  concat (.assert (.lineStart false) :: importParts path)

theorem denotes_importParts (h : Denotes (concat path) {p | kind p})
    (hpath : ∀ p, kind p → ∀ c ∈ p, isPathChar c = true) :
    Denotes (concat (importParts path)) {l | ∃ p, kind p ∧ ImportLine p l} := by
  have hend := h.append ((denotes_char ';').cons denotes_lineEnd)
  refine cast (congrArg _ ?_) ((denotes_literal useWord).append hend)
  ext l
  constructor
  · intro hl
    obtain ⟨_, rfl, _, hafter, rfl⟩ := Language.mem_mul.mp hl
    obtain ⟨p, hp, _, hends, rfl⟩ := Language.mem_mul.mp hafter
    obtain ⟨_, rfl, e, he, rfl⟩ := Language.mem_mul.mp hends
    exact ⟨p, hp, hpath p hp, e, he, rfl⟩
  · rintro ⟨p, hp, -, e, he, rfl⟩
    refine Language.append_mem_mul rfl (Language.append_mem_mul hp ?_)
    exact Language.append_mem_mul (a := [';']) rfl he

namespace Rule

/-- The rule takes out the lines that import a path of this kind. -/
structure RemovesImports (r : Rule) (kind : List Char → Prop) : Prop where
  regex : ∃ path, r.pattern.regex = importRegex path ∧ Denotes (concat path) {p | kind p}
  isPath : ∀ p, kind p → ∀ c ∈ p, isPathChar c = true
  limit : ∀ n, r.strategy.limit n = n
  rewrite : ∀ text m, r.strategy.rewrite r.pattern text m = []

namespace RemovesImports

open Classical in
theorem findsLines (h : r.RemovesImports kind) :
    FindsLines r.pattern fun l => decide (∃ p, kind p ∧ ImportLine p l) := by
  obtain ⟨path, hregex, hpath⟩ := h.regex
  refine .of_denotes hregex ?_ (denotes_importParts hpath h.isPath) (fun l => decide_eq_true_iff) ?_
  · exact List.mem_append_right _ (List.mem_append_right _ (by simp))
  · rintro l ⟨p, -, hl⟩
    exact hl.isLine

open Classical in
theorem swaps (h : r.RemovesImports kind) : r.Swaps fun before found new _ =>
    atLineStart before.getLast? = true ∧ (∃ p, kind p ∧ ImportLine p found) ∧ new = [] where
  total := ⟨h.limit, h.findsLines.neverEmpty⟩
  swap before found rest saved htakes := by
    obtain ⟨hstart, l, rest', heq, hl, hb⟩ := (h.findsLines.takes_iff ..).mp htakes
    obtain ⟨hstop, -⟩ := Point.mk.inj hb
    obtain ⟨rfl, -⟩ := List.append_inj heq (by simpa using hstop)
    exact ⟨hstart, of_decide_eq_true hl, h.rewrite _ _⟩
  starts before found new rest := by
    rintro ⟨hstart, hfound, -⟩
    exact ⟨_, (h.findsLines.takes_iff ..).mpr
      ⟨hstart, found, rest, rfl, decide_eq_true hfound, rfl⟩⟩

theorem matchesIn_eq_nil_iff (h : r.RemovesImports kind) :
    r.pattern.matchesIn text = [] ↔ ¬ Imports kind text := by
  rw [h.swaps.matchesIn_eq_nil_iff]
  constructor
  · rintro hnone ⟨x, p, l, y, hx, hp, hl, heq⟩
    exact hnone x l [] y heq ⟨hx, ⟨p, hp, hl⟩, rfl⟩
  · rintro hnone before found new rest heq ⟨hstart, ⟨p, hp, hl⟩, -⟩
    exact hnone ⟨before, p, found, rest, hstart, hp, hl, heq⟩

theorem not_imports_apply (h : r.RemovesImports kind) (text : List Char) :
    ¬ Imports kind (r.apply text).1 :=
  h.matchesIn_eq_nil_iff.mp (h.findsLines.matchesIn_apply_eq_nil h.limit (h.rewrite text))

theorem trims_apply (h : r.RemovesImports kind) (text : List Char) :
    Trims L text (r.apply text).1 := by
  -- what is written is at the start of a line wherever what was read is
  suffices hall : Trims L text ((r.apply text).1 ++ []) ∧
      (atLineStart text.getLast? = true → atLineStart (r.apply text).1.getLast? = true) by
    simpa using hall.1
  refine h.swaps.apply (Q := fun before out rest => Trims L text (out ++ rest) ∧
    (atLineStart before.getLast? = true → atLineStart out.getLast? = true))
    ⟨.refl _, fun hstart => hstart⟩ ?_ ?_
  · rintro before out c rest - - ⟨hold, -⟩
    exact ⟨by simpa using hold, by simp⟩
  · rintro before out found _ rest - ⟨hstart, ⟨p, -, hl⟩, rfl⟩ ⟨hold, hout⟩
    have hline := hout hstart
    rw [List.append_nil]
    exact ⟨hold.trim (.line hline hl), fun _ => hline⟩

end RemovesImports

end Rule

/-! ## Items of a list -/

/-- The expression for a word in a list, with what opens the list saved as a group. -/
def listedRegex (o w : List Char) : Regex :=
  concat (.group 1 (concat ((o.map fun c => .set (· == c)) ++
    [.star false (.set fun c => !(c == '}'))])) :: ((w.map fun c => .set (· == c)) ++
      [.assert (.wordBoundary .unicode)]))

/-- The word ends with a character of words. -/
def EndsWord (w : List Char) : Prop :=
  w.getLast?.any Unicode.isWord = true

instance : Decidable (EndsWord w) :=
  inferInstanceAs (Decidable (_ = _))

theorem EndsWord.ne_nil (h : EndsWord w) : w ≠ [] := by
  rintro rfl
  cases h

/-- After a word that ends as words do is a boundary where no word goes on. -/
theorem EndsWord.takes_boundary (h : EndsWord w) {saved : List (Nat × Nat)} {text : Array Char}
    (htext : text.toList = (before ++ w) ++ rest) :
    Takes text (.assert (.wordBoundary .unicode)) ⟨(before ++ w).length, saved⟩ b ↔
      NoWord rest ∧ b = ⟨(before ++ w).length, saved⟩ := by
  have hlast : (before ++ w).getLast?.any Unicode.isWord = true := by
    rwa [List.getLast?_append_of_ne_nil _ h.ne_nil]
  have hbound : (Assertion.wordBoundary .unicode).holds (before ++ w).getLast? rest.head? =
      (true != rest.head?.any Unicode.isWord) := hlast ▸ rfl
  rw [takes_assert_of_split htext, hbound]
  simp [NoWord]

theorem takes_listedRegex (hw : EndsWord w) :
    Takes (before ++ rest).toArray (listedRegex o w) ⟨before.length, []⟩ b ↔
      ∃ s rest', '}' ∉ s ∧ rest = o ++ (s ++ (w ++ rest')) ∧ NoWord rest' ∧
        b = ⟨(before ++ (o ++ (s ++ w))).length,
          [(3, (before ++ (o ++ s)).length), (2, before.length)]⟩ := by
  simp only [listedRegex, takes_concat_cons, takes_concat_append, takes_concat_nil, takes_group,
    exists_eq_right']
  constructor
  · rintro ⟨_, ⟨_, ⟨_, hopen, hlist⟩, rfl⟩, _, hword, hends⟩
    obtain ⟨rest, rfl, rfl⟩ := (takes_literal rfl).mp hopen
    have hopened : (before ++ (o ++ rest)).toArray.toList = (before ++ o) ++ rest := by simp
    obtain ⟨s, rest, rfl, hs, rfl⟩ := (takes_star_set hopened).mp hlist
    have hkept : (before ++ (o ++ (s ++ rest))).toArray.toList = (before ++ o ++ s) ++ rest := by
      simp
    obtain ⟨rest, rfl, rfl⟩ := (takes_literal hkept).mp hword
    have hended : (before ++ (o ++ (s ++ (w ++ rest)))).toArray.toList =
        (before ++ o ++ s ++ w) ++ rest := by simp
    obtain ⟨hrest, rfl⟩ := (hw.takes_boundary hended).mp hends
    exact ⟨s, rest, forall_not_beq_iff.mp hs, rfl, hrest, by simp⟩
  · rintro ⟨s, rest, hs, rfl, hrest, rfl⟩
    have hopened : (before ++ (o ++ (s ++ (w ++ rest)))).toArray.toList =
        (before ++ o) ++ (s ++ (w ++ rest)) := by simp
    have hkept : (before ++ (o ++ (s ++ (w ++ rest)))).toArray.toList =
        (before ++ o ++ s) ++ (w ++ rest) := by simp
    refine ⟨_, ⟨_, ⟨_, (takes_literal rfl).mpr ⟨_, rfl, rfl⟩, (takes_star_set hopened).mpr
      ⟨s, _, rfl, forall_not_beq_iff.mpr hs, rfl⟩⟩, rfl⟩, _, (takes_literal hkept).mpr
        ⟨rest, rfl, rfl⟩, (hw.takes_boundary (by simp)).mpr ⟨hrest, ?_⟩⟩
    simp

namespace Rule

/-- The rule takes the word `w` out of a list that the word `o` opens. -/
structure Unlists (r : Rule) (o w : List Char) : Prop where
  regex : r.pattern.regex = listedRegex o w
  ends : EndsWord w
  limit : ∀ n, r.strategy.limit n = n
  rewrite : ∀ text m, r.strategy.rewrite r.pattern text m = m.textOf text 1

namespace Unlists

theorem swaps (h : r.Unlists o w) : r.Swaps fun _ found new rest =>
    ∃ s, '}' ∉ s ∧ found = o ++ (s ++ w) ∧ new = o ++ s ∧ NoWord rest where
  total := by
    refine ⟨h.limit, fun text => ?_⟩
    obtain ⟨c, w, rfl⟩ := List.exists_cons_of_ne_nil h.ends.ne_nil
    rw [h.regex]
    exact neverEmpty_concat (List.mem_cons_of_mem _ List.mem_cons_self) (neverEmpty_set _)
  swap before found rest saved htakes := by
    rw [h.regex] at htakes
    obtain ⟨s, rest', hs, heq, hrest, hb⟩ := (takes_listedRegex h.ends).mp htakes
    obtain ⟨hstop, rfl⟩ := Point.mk.inj hb
    have hsame : found ++ rest = (o ++ (s ++ w)) ++ rest' := by simpa using heq
    obtain ⟨rfl, rfl⟩ := List.append_inj hsame (by simpa using hstop)
    refine ⟨s, hs, rfl, ?_, hrest⟩
    have hgroup : Match.textOf ⟨before.length, (before ++ (o ++ (s ++ w))).length,
        [(3, (before ++ (o ++ s)).length), (2, before.length)]⟩
        (before ++ ([] ++ ((o ++ s) ++ (w ++ rest)))) 1 = o ++ s := textOf_enclosed (by simp) _
    rw [h.rewrite]
    simpa using hgroup
  starts before found new rest := by
    rintro ⟨s, hs, rfl, -, hrest⟩
    exact ⟨_, h.regex ▸ (takes_listedRegex h.ends).mpr ⟨s, rest, hs, by simp, hrest, rfl⟩⟩

theorem matchesIn_eq_nil_iff (h : r.Unlists o w) :
    r.pattern.matchesIn text = [] ↔ ¬ Listed o w text := by
  rw [h.swaps.matchesIn_eq_nil_iff]
  constructor
  · rintro hnone ⟨u, s, v, rfl, hs, hv⟩
    exact hnone u (o ++ (s ++ w)) (o ++ s) v (by simp) ⟨s, hs, rfl, rfl, hv⟩
  · rintro hnone before _ _ rest rfl ⟨s, hs, rfl, -, hrest⟩
    exact hnone ⟨before, s, rest, by simp, hs, hrest⟩

theorem trims_apply (h : r.Unlists L.opener L.listed) (text : List Char) :
    Trims L text (r.apply text).1 := by
  refine h.swaps.preserves (.refl _) ?_
  rintro before out _ _ rest - ⟨s, hs, rfl, rfl, hrest⟩ hold
  have hstep : Trim L ((out ++ (L.opener ++ s)) ++ (L.listed ++ rest)) _ :=
    .item (L.item_of_mem List.mem_cons_self) (.inr ⟨out, s, by simp, hs, hrest⟩)
  exact hold.trim (by simpa using hstep)

/-- Lists have the item one time at most, so no list has it where it was taken out. -/
theorem length_le_of_swap {out s s' : List Char}
    (htidy : Tidy L ((out ++ (L.opener ++ s)) ++ (L.listed ++ rest))) (hs : '}' ∉ s)
    (hrest : NoWord rest)
    (hold : ∀ u s' v, (out ++ (L.opener ++ s)) ++ (L.listed ++ rest) =
      u ++ (L.opener ++ (s' ++ (L.listed ++ v))) → '}' ∉ s' → NoWord v → out.length ≤ u.length)
    (heq : (out ++ (L.opener ++ s)) ++ rest = u ++ (L.opener ++ (s' ++ (L.listed ++ v))))
    (hs' : '}' ∉ s') (hv : NoWord v) : (out ++ (L.opener ++ s)).length ≤ u.length := by
  have hlast := htidy.once out s rest (by simp) hs hrest
  have hgap : Gap L L.listed (out ++ (L.opener ++ s)) rest :=
    htidy.gap (L.item_of_mem List.mem_cons_self) (.inr ⟨out, s, by simp, hs, hrest⟩)
  rcases Gap.cases (.inr hgap) L.opener_mem_words heq with ⟨x, hx, hlist, hgap⟩ | ⟨x, rfl, -⟩
  swap
  · simp
  rcases Gap.cases (.inr hgap) L.listed_mem_words hlist.symm with
    ⟨t, rfl, rfl, hgap⟩ | ⟨t, rfl, rfl⟩
  · -- the item was there, and the one that was taken out came after it
    have htext : (out ++ (L.opener ++ s)) ++ (L.listed ++ rest) =
        u ++ (L.opener ++ (s' ++ (L.listed ++ (t ++ (L.listed ++ rest))))) := by
      simpa using congrArg (· ++ (L.listed ++ rest)) hx
    have hbefore : NoWord (t ++ (L.listed ++ rest)) := hgap.noWord hv
    have hle := hold u s' _ htext hs' hbefore
    have ht : '}' ∉ t := by
      rcases append_cases hx with ⟨z, rfl, hz⟩ | ⟨z, rfl, -, hne⟩
      · have hlist : '}' ∉ L.opener ++ s := by simp [(L.word _ L.opener_mem_words).2.2, hs]
        rw [hz] at hlist
        simp only [List.mem_append, not_or] at hlist
        exact hlist.2.2.2.2
      · have hpos := List.length_pos_iff.mpr hne
        rw [List.length_append] at hle
        omega
    exact absurd hrest (htidy.once u s' _ htext hs' hbefore t rest rfl ht)
  · exact absurd hv (hlast t v rfl fun hmem => hs' (List.mem_append_right _ hmem))

theorem not_listed_apply (h : r.Unlists L.opener L.listed) (htidy : Tidy L text) :
    ¬ Listed L.opener L.listed (r.apply text).1 := by
  rintro ⟨u, s, v, heq, hs, hv⟩
  refine h.swaps.leaves_none
    (S := fun u t => ∃ s v, t = u ++ (L.opener ++ (s ++ (L.listed ++ v))) ∧ '}' ∉ s ∧ NoWord v)
    (I := fun _ out rest => Tidy L (out ++ rest)) htidy ?_ ?_ ?_ u ⟨s, v, heq, hs, hv⟩
  · rintro u _ ⟨s, v, rfl, -, -⟩
    exact ⟨L.opener ++ (s ++ (L.listed ++ v)), by simp [h.ends.ne_nil], rfl⟩
  · rintro before out c rest - hnone htidy
    refine ⟨by simpa using htidy, fun ⟨s, v, heq, hs, hv⟩ => ?_⟩
    have hrest : c :: rest = (L.opener ++ (s ++ L.listed)) ++ v := by
      simpa using List.append_cancel_left heq
    exact hnone _ (L.opener ++ s) v hrest ⟨s, hs, rfl, rfl, hv⟩
  · rintro before out _ _ rest - ⟨s, hs, rfl, rfl, hrest⟩ htidy hold
    have hsplit : out ++ ((L.opener ++ (s ++ L.listed)) ++ rest) =
        (out ++ (L.opener ++ s)) ++ (L.listed ++ rest) := by simp
    rw [hsplit] at htidy hold
    have hstep : Trim L ((out ++ (L.opener ++ s)) ++ (L.listed ++ rest)) _ :=
      .item (L.item_of_mem List.mem_cons_self) (.inr ⟨out, s, by simp, hs, hrest⟩)
    refine ⟨htidy.trim hstep, fun u ⟨s', v, heq, hs', hv⟩ => ?_⟩
    exact length_le_of_swap htidy hs hrest (fun u s' v heq hs' hv => hold u ⟨s', v, heq, hs', hv⟩)
      heq hs' hv

end Unlists

/-! ## Items wherever they stand -/

namespace Replaces

theorem trims_apply (h : r.Replaces w []) (hw : Item w) (hends : ∃ v ∈ L.items, v <:+ w)
    (text : List Char) : Trims L text (r.apply text).1 := by
  obtain ⟨v, hv, t, rfl⟩ := hends
  refine h.preserves (.refl _) fun before out rest _ hold => ?_
  exact hold.trim (.item hw (.inl ⟨v, hv, out ++ t, by simp⟩))

theorem lacks_apply_of_tidy (h : r.Replaces w []) (hw : w ∈ L.items) (htidy : Tidy L text) :
    Lacks w (r.apply text).1 := by
  intro u w' heq
  have hitem : Item w := L.item_of_mem (List.mem_cons_of_mem _ hw)
  refine h.swaps.leaves_none (S := fun u t => ∃ v, t = u ++ (w ++ v))
    (I := fun _ out rest => Tidy L (out ++ rest)) htidy ?_ ?_ ?_ u ⟨w', heq⟩
  · rintro u _ ⟨v, rfl⟩
    exact ⟨w ++ v, by simp [h.nonempty], rfl⟩
  · rintro before out c rest - hnone htidy
    refine ⟨by simpa using htidy, fun ⟨v, heq⟩ => ?_⟩
    exact hnone w [] v (List.append_cancel_left heq) ⟨rfl, rfl⟩
  · rintro before out found _ rest - ⟨hfound, rfl⟩ htidy hold
    obtain rfl : w = found := hfound.symm
    have hfollows : L.Follows (out ++ (w ++ rest)) rest := .inl ⟨w, hw, out, rfl⟩
    rw [List.append_nil]
    refine ⟨htidy.trim (.item hitem hfollows), fun u ⟨v, heq⟩ => ?_⟩
    rcases Gap.cases (.inr (htidy.gap hitem hfollows)) (L.mem_words_of_mem_items hw) heq with
      ⟨t, rfl, rfl, -⟩ | ⟨t, rfl, -⟩
    · have hle := hold u ⟨t ++ (w ++ rest), by simp⟩
      have hpos := List.length_pos_iff.mpr h.nonempty
      simp only [List.length_append] at hle
      omega
    · simp

end Replaces

/-! ## Lists of such rules -/

/-- The rule trims, it finds nothing in what it has made of a tidy text, and trimming a tidy text
brings nothing about for it. -/
structure Tidies (r : Rule) (L : Leftovers) : Prop where
  trims : ∀ text, Trims L text (r.apply text).1
  leaves : ∀ text, Tidy L text → r.pattern.matchesIn (r.apply text).1 = []
  keeps : ∀ text text', Tidy L text → Trims L text text' → r.pattern.matchesIn text = [] →
    r.pattern.matchesIn text' = []

theorem RemovesImports.tidies (h : r.RemovesImports kind) (hkind : ∀ p, kind p → p ∈ L.paths) :
    r.Tidies L where
  trims := h.trims_apply
  leaves text _ := h.matchesIn_eq_nil_iff.mpr (h.not_imports_apply text)
  keeps _ _ htidy htrims hnone :=
    h.matchesIn_eq_nil_iff.mpr (htrims.not_imports htidy hkind (h.matchesIn_eq_nil_iff.mp hnone))

theorem Unlists.tidies (h : r.Unlists L.opener L.listed) : r.Tidies L where
  trims := h.trims_apply
  leaves _ htidy := h.matchesIn_eq_nil_iff.mpr (h.not_listed_apply htidy)
  keeps _ _ htidy htrims hnone :=
    h.matchesIn_eq_nil_iff.mpr (htrims.not_listed htidy (h.matchesIn_eq_nil_iff.mp hnone))

theorem Replaces.tidies (h : r.Replaces w []) (hw : w ∈ L.items) : r.Tidies L where
  trims := h.trims_apply (L.item_of_mem (List.mem_cons_of_mem _ hw)) ⟨w, hw, List.suffix_refl w⟩
  leaves _ htidy := h.matchesIn_eq_nil_iff.mpr (h.lacks_apply_of_tidy hw htidy)
  keeps _ _ htidy htrims hnone :=
    h.matchesIn_eq_nil_iff.mpr (htrims.lacks htidy (L.mem_words_of_mem_items hw)
      (h.matchesIn_eq_nil_iff.mp hnone))

variable {rs : List Rule}

theorem trims_applyAll (hrs : ∀ r ∈ rs, ∀ text, Trims L text (r.apply text).1)
    (text : List Char) : Trims L text (applyAll rs text).text := by
  induction rs generalizing text with
  | nil => exact .refl text
  | cons r rs ih =>
    rw [text_applyAll_cons]
    exact (hrs r List.mem_cons_self text).trans
      (ih (fun r hr => hrs r (List.mem_cons_of_mem _ hr)) _)

/-- Where rules trim a tidy text one after the other, nothing is left of what any of them takes
out. -/
theorem Tidies.matchesIn_applyAll (hrs : ∀ r ∈ rs, ∀ text, Trims L text (r.apply text).1)
    (htidy : Tidy L text) (hr : r ∈ rs) (h : r.Tidies L) :
    r.pattern.matchesIn (applyAll rs text).text = [] := by
  induction rs generalizing text with
  | nil => cases hr
  | cons r' rs ih =>
    have hrest : ∀ r ∈ rs, ∀ text, Trims L text (r.apply text).1 :=
      fun r hr => hrs r (List.mem_cons_of_mem _ hr)
    have hnext : Tidy L (r'.apply text).1 := (hrs r' List.mem_cons_self text).tidy htidy
    rw [text_applyAll_cons]
    rcases List.mem_cons.mp hr with rfl | hr
    · exact h.keeps _ _ hnext (trims_applyAll hrest _) (h.leaves text htidy)
    · exact ih hrest hnext hr

end Rule

end Amend
