import Amend.Proofs.Pattern.Language
import Amend.Proofs.Rule.Deletion
import Amend.Proofs.Rule.Lines

/-!
# Rules for whole lines

A pattern that finds whole lines of a kind finds the lines of this kind in their order
(`FindsLines.matchesIn_eq`). What removes matches of it takes as many of these lines out of the
text, from the first one on, and keeps all others (`splice_lineMatches`).
-/

set_option autoImplicit false

namespace Amend

open Regex

/-- Whether a position, by the character before it, is the start of a line. -/
def atLineStart (before : Option Char) : Bool :=
  before.all (· == '\n')

/-- The pattern matches the lines that `kind` holds of, as a whole. -/
structure FindsLines (p : Pattern) (kind : List Char → Bool) : Prop where
  isLine : ∀ l, kind l = true → IsLine l
  neverEmpty : ∀ text, NeverEmpty text p.regex
  takes_iff : ∀ (before rest : List Char) (b : Point),
    Takes (before ++ rest).toArray p.regex ⟨before.length, []⟩ b ↔
      atLineStart before.getLast? = true ∧ ∃ l rest', rest = l ++ rest' ∧ kind l = true ∧
        b = ⟨(before ++ l).length, []⟩

/-- The end of a line. -/
def LineEnd (e : List Char) : Prop :=
  e = ['\n'] ∨ e = ['\r', '\n']

theorem denotes_lineEnd :
    Denotes (concat [.upTo true (.set (· == '\r')) 1, .set (· == '\n')]) {e | LineEnd e} := by
  have hnewline : Denotes (concat [.set (· == '\n')]) {['\n']} := denotes_char '\n'
  refine cast (congrArg _ ?_) (((denotes_char '\r').upTo_one true).cons hnewline)
  ext e
  constructor
  · intro he
    obtain ⟨_, rfl | rfl, _, rfl, rfl⟩ := Language.mem_mul.mp he
    · exact .inr rfl
    · exact .inl rfl
  · rintro (rfl | rfl)
    · exact Language.append_mem_mul (a := []) (.inr rfl) rfl
    · exact Language.append_mem_mul (a := ['\r']) (.inl rfl) rfl

/-- The lines of a kind as matches, where the lines start at a position. -/
def lineMatches (kind : List Char → Bool) : Nat → List (List Char) → List Match
  | _, [] => []
  | pos, l :: ls =>
    if kind l then ⟨pos, pos + l.length, []⟩ :: lineMatches kind (pos + l.length) ls
    else lineMatches kind (pos + l.length) ls

section
variable {kind : List Char → Bool} {p : Pattern} {text before rest l l' u v : List Char}
  {ls : List (List Char)} {ms ms' : List Match} {start k : Nat}

theorem length_lineMatches (kind : List Char → Bool) (pos : Nat) (ls : List (List Char)) :
    (lineMatches kind pos ls).length = ls.countP kind := by
  induction ls generalizing pos with
  | nil => rfl
  | cons l ls ih =>
    rw [lineMatches, List.countP_cons]
    split
    · rw [List.length_cons, ih]
    · rw [ih, Nat.add_zero]

/-! ## Lines within a text -/

theorem IsLine.unique (h : IsLine l) (h' : IsLine l') {rest' : List Char}
    (heq : l ++ rest = l' ++ rest') : l = l' := by
  have hsplit := splitLines_line_append h rest
  rw [heq, splitLines_line_append h'] at hsplit
  exact (List.cons.inj (Prod.mk.inj hsplit).1).1.symm

theorem IsLine.mem (h : IsLine l) : '\n' ∈ l := by
  obtain ⟨w, -, rfl⟩ := h
  simp

theorem IsLine.ne_nil (h : IsLine l) : l ≠ [] :=
  List.ne_nil_of_mem h.mem

theorem IsLine.atLineStart (h : IsLine l) (before : List Char) :
    atLineStart (before ++ l).getLast? = true := by
  obtain ⟨w, -, rfl⟩ := h
  simp [Amend.atLineStart]

theorem IsLine.not_atLineStart (h : IsLine (u ++ v)) (hu : u ≠ []) (hv : v ≠ [])
    (before : List Char) : Amend.atLineStart (before ++ u).getLast? = false := by
  obtain ⟨w, hw, heq⟩ := h
  induction u using List.reverseRecOn with
  | nil => exact absurd rfl hu
  | append_singleton u c _ =>
    induction v using List.reverseRecOn with
    | nil => exact absurd rfl hv
    | append_singleton v d _ =>
      rw [← List.append_assoc] at heq
      obtain ⟨rfl, -⟩ := List.append_inj' heq rfl
      have hc : c ≠ '\n' := fun hc => hw (by simp [hc])
      simp [Amend.atLineStart, hc]

/-! ## Finding lines -/

/-- A pattern that starts with a line and denotes lines finds the lines that it denotes. -/
theorem FindsLines.of_denotes {rs : List Regex} {L : Language Char}
    (hregex : p.regex = concat (.assert (.lineStart false) :: rs))
    (hend : .set (· == '\n') ∈ rs) (hrs : Denotes (concat rs) L)
    (hkind : ∀ l, kind l = true ↔ l ∈ L) (hline : ∀ l ∈ L, IsLine l) : FindsLines p kind := by
  refine ⟨fun l hl => hline l ((hkind l).mp hl), fun text => ?_, fun before rest b => ?_⟩
  · rw [hregex]
    exact neverEmpty_concat (List.mem_cons_of_mem _ hend) (neverEmpty_set _)
  · have hstart : (Assertion.lineStart false).holds before.getLast? rest.head? =
        Amend.atLineStart before.getLast? := by
      unfold Assertion.holds Amend.atLineStart
      cases before.getLast? <;> rfl
    rw [hregex, takes_concat_cons]
    simp only [takes_assert_of_split rfl, hstart]
    constructor
    · rintro ⟨_, ⟨hbefore, rfl⟩, htakes⟩
      obtain ⟨l, hl, rest', hrest, rfl⟩ := (hrs ..).mp htakes
      exact ⟨hbefore, l, rest', hrest, (hkind l).mpr hl, rfl⟩
    · rintro ⟨hbefore, l, rest', hrest, hl, rfl⟩
      exact ⟨_, ⟨hbefore, rfl⟩, (hrs ..).mpr ⟨l, (hkind l).mp hl, rest', hrest, rfl⟩⟩

/-- A scan that finds nothing at the first positions can start there. -/
theorem Regex.Scan.of_skip {text : Array Char} {r : Regex} (h : Scan text r (start + k) ms)
    (hskip : ∀ i, start ≤ i → i < start + k → ∀ b, ¬ Takes text r ⟨i, []⟩ b) :
    Scan text r start ms := by
  cases h with
  | done hnone =>
    refine .done fun i hi hsize => ?_
    rcases Nat.lt_or_ge i (start + k) with hlt | hge
    · exact hskip i hi hlt
    · exact hnone i hge hsize
  | @found _ m _ hle hsize htakes hskip' hrest =>
    refine .found (by omega) hsize htakes (fun i hi hlt => ?_) hrest
    rcases Nat.lt_or_ge i (start + k) with hlt' | hge
    · exact hskip i hi hlt'
    · exact hskip' i hge hlt

/-- Where all matches from a position end at one place there is one scan. -/
theorem Regex.Scan.unique {text : Array Char} {r : Regex}
    (hend : ∀ i ≤ text.size, ∀ b b', Takes text r ⟨i, []⟩ b → Takes text r ⟨i, []⟩ b' → b = b')
    (h : Scan text r start ms) (h' : Scan text r start ms') : ms = ms' := by
  induction h generalizing ms' with
  | done hnone =>
    cases h' with
    | done => rfl
    | found hle hsize htakes => exact absurd htakes (hnone _ hle hsize _)
  | @found _ m _ hle hsize htakes hskip _ ih =>
    cases h' with
    | done hnone => exact absurd htakes (hnone _ hle hsize _)
    | @found _ m' _ hle' hsize' htakes' hskip' hrest' =>
      have hstart : m.start = m'.start := by
        rcases Nat.lt_trichotomy m.start m'.start with hlt | heq | hlt
        · exact absurd htakes (hskip' _ hle hlt _)
        · exact heq
        · exact absurd htakes' (hskip _ hle' hlt _)
      obtain ⟨i, stop, saved⟩ := m
      obtain ⟨i', stop', saved'⟩ := m'
      obtain rfl : i = i' := hstart
      obtain ⟨rfl, rfl⟩ := Point.mk.inj (hend _ hsize _ _ htakes htakes')
      rw [ih hrest']

namespace FindsLines

theorem takes_at (h : FindsLines p kind) (htext : text = before ++ rest) {b : Point} :
    Takes text.toArray p.regex ⟨before.length, []⟩ b ↔
      atLineStart before.getLast? = true ∧ ∃ l rest', rest = l ++ rest' ∧ kind l = true ∧
        b = ⟨(before ++ l).length, []⟩ :=
  htext ▸ h.takes_iff before rest b

theorem scan_lineMatches (h : FindsLines p kind) (before : List Char)
    (hlines : ∀ l ∈ ls, IsLine l) (hrest : '\n' ∉ rest)
    (hstart : atLineStart before.getLast? = true)
    (htext : text = before ++ (ls.flatten ++ rest)) :
    Scan text.toArray p.regex before.length (lineMatches kind before.length ls) := by
  induction ls generalizing before with
  | nil =>
    refine .done fun i hi hsize b hb => ?_
    obtain ⟨k, rfl⟩ := Nat.exists_eq_add_of_le hi
    rw [htext, List.size_toArray, List.length_append] at hsize
    have hsplit : text = (before ++ rest.take k) ++ rest.drop k := by
      rw [htext, List.append_assoc, List.take_append_drop]
      rfl
    have hlength : (before ++ rest.take k).length = before.length + k := by
      rw [List.flatten_nil, List.nil_append] at hsize
      rw [List.length_append, List.length_take_of_le (by omega)]
    rw [← hlength] at hb
    obtain ⟨-, l, rest', heq, hkind, -⟩ := (h.takes_at hsplit).mp hb
    exact hrest (List.mem_of_mem_drop (heq ▸ List.mem_append_left _ (h.isLine l hkind).mem))
  | cons l ls ih =>
    have hl := hlines l List.mem_cons_self
    have hsplit : text = before ++ (l ++ (ls.flatten ++ rest)) := by
      rw [htext, List.flatten_cons, List.append_assoc]
    have hnext := ih (before ++ l) (fun l' hl' => hlines l' (List.mem_cons_of_mem _ hl'))
      (hl.atLineStart before) (by rw [hsplit, List.append_assoc])
    rw [List.length_append] at hnext
    rw [lineMatches]
    split
    · next hkind =>
      refine .found (Nat.le_refl _) ?_ ?_ (fun i hi hlt => absurd hlt (Nat.not_lt.mpr hi)) hnext
      · simp [hsplit]
      · exact (h.takes_at hsplit).mpr ⟨hstart, l, _, rfl, hkind, by rw [List.length_append]⟩
    · next hkind =>
      refine hnext.of_skip fun i hi hlt b hb => ?_
      obtain ⟨k, rfl⟩ := Nat.exists_eq_add_of_le hi
      have hk : k < l.length := by omega
      cases k with
      | zero =>
        obtain ⟨-, l', rest', heq, hkind', -⟩ := (h.takes_at hsplit).mp hb
        exact hkind (hl.unique (h.isLine l' hkind') heq ▸ hkind')
      | succ k =>
        have hwithin : text =
            (before ++ l.take (k + 1)) ++ (l.drop (k + 1) ++ (ls.flatten ++ rest)) := by
          rw [hsplit, List.append_assoc, ← List.append_assoc (l.take _), List.take_append_drop]
        have hlength : (before ++ l.take (k + 1)).length = before.length + (k + 1) := by
          rw [List.length_append, List.length_take_of_le (by omega)]
        rw [← hlength] at hb
        obtain ⟨hstart', -⟩ := (h.takes_at hwithin).mp hb
        rw [← List.take_append_drop (k + 1) l] at hl
        rw [hl.not_atLineStart (List.ne_nil_of_length_pos (by simp; omega))
          (List.ne_nil_of_length_pos (by simp; omega))] at hstart'
        cases hstart'

/-- The lines of the kind are what is found. -/
theorem matchesIn_eq (h : FindsLines p kind) (text : List Char) :
    p.matchesIn text = lineMatches kind 0 (splitLines text).1 := by
  obtain ⟨htext, hlines, hrest⟩ := splitLines_spec text
  have hscan := h.scan_lineMatches [] hlines hrest rfl htext
  refine (p.scan_matchesIn text (h.neverEmpty _)).unique (fun i hi b b' hb hb' => ?_) hscan
  have hsplit : text = text.take i ++ text.drop i := (List.take_append_drop i text).symm
  have hlength : (text.take i).length = i := List.length_take_of_le (by simpa using hi)
  rw [← hlength] at hb hb'
  obtain ⟨-, l, rest, heq, hkind, rfl⟩ := (h.takes_at hsplit).mp hb
  obtain ⟨-, l', rest', heq', hkind', rfl⟩ := (h.takes_at hsplit).mp hb'
  rw [(h.isLine l hkind).unique (h.isLine l' hkind') (heq.symm.trans heq')]

end FindsLines

/-! ## Removing lines -/

theorem iterate_eraseP_nil (kind : List Char → Bool) (k : Nat) :
    (List.eraseP kind)^[k] [] = [] :=
  Function.iterate_fixed rfl k

theorem iterate_eraseP_of_pos (h : kind l = true) (k : Nat) :
    (List.eraseP kind)^[k + 1] (l :: ls) = (List.eraseP kind)^[k] ls := by
  rw [Function.iterate_succ_apply, List.eraseP_cons_of_pos h]

theorem iterate_eraseP_of_neg (h : ¬ kind l = true) (k : Nat) :
    (List.eraseP kind)^[k] (l :: ls) = l :: (List.eraseP kind)^[k] ls := by
  induction k generalizing ls with
  | zero => rfl
  | succ k ih =>
    rw [Function.iterate_succ_apply, List.eraseP_cons_of_neg h, ih, Function.iterate_succ_apply]

/-- Lines of a kind that are taken out one after the other are all gone in the end. -/
theorem iterate_eraseP_of_countP_le (h : ls.countP kind ≤ k) :
    (List.eraseP kind)^[k] ls = ls.filter fun l => !kind l := by
  induction ls generalizing k with
  | nil => exact iterate_eraseP_nil kind k
  | cons l ls ih =>
    rw [List.countP_cons] at h
    by_cases hl : kind l = true
    · rw [if_pos hl] at h
      obtain ⟨k, rfl⟩ := Nat.exists_eq_add_one_of_ne_zero (show k ≠ 0 by omega)
      rw [iterate_eraseP_of_pos hl, ih (by omega), List.filter_cons_of_neg (by simp [hl])]
    · rw [if_neg hl] at h
      rw [iterate_eraseP_of_neg hl, ih h, List.filter_cons_of_pos (by simp [hl])]

/-- When the first matches are removed, so are the first lines of the kind, and no others. Of the
text that is spliced, `skipped` comes before the lines. -/
theorem splice_lineMatches (kind : List Char → Bool) (ls : List (List Char))
    (skipped rest : List Char) (pos k : Nat) :
    splice pos (skipped ++ (ls.flatten ++ rest))
        (((lineMatches kind (pos + skipped.length) ls).take k).map Match.removal) =
      skipped ++ (((List.eraseP kind)^[k] ls).flatten ++ rest) := by
  induction ls generalizing skipped pos k with
  | nil => rw [lineMatches, List.take_nil, iterate_eraseP_nil, List.map_nil, splice]
  | cons l ls ih =>
    rw [lineMatches, List.flatten_cons, List.append_assoc]
    split
    · next hkind =>
      cases k with
      | zero => simp [splice]
      | succ k =>
        have hnext := ih [] (pos + skipped.length + l.length) k
        rw [List.nil_append, List.nil_append, List.length_nil, Nat.add_zero] at hnext
        rw [List.take_succ_cons, List.map_cons, splice, iterate_eraseP_of_pos hkind]
        dsimp only [Match.removal]
        rw [Nat.add_assoc, Nat.add_sub_cancel_left, Nat.add_sub_cancel_left, ← Nat.add_assoc,
          List.take_left, List.nil_append, ← List.append_assoc skipped l, ← List.length_append,
          List.drop_left, hnext]
    · next hkind =>
      have hnext := ih (skipped ++ l) pos k
      rw [List.length_append, ← Nat.add_assoc, List.append_assoc, List.append_assoc] at hnext
      rw [iterate_eraseP_of_neg hkind, List.flatten_cons, hnext, List.append_assoc]

/-- A rule that leaves nothing of the lines of a kind takes the first of them out of the text, as
many as it may. -/
theorem FindsLines.apply_eq {r : Rule} (h : FindsLines r.pattern kind)
    (htext : splitLines text = (ls, rest))
    (hremoves : ∀ m, r.strategy.rewrite r.pattern text m = []) :
    r.apply text = (((List.eraseP kind)^[r.strategy.limit (ls.countP kind)] ls).flatten ++ rest,
      min (r.strategy.limit (ls.countP kind)) (ls.countP kind)) := by
  have hfound : r.pattern.matchesIn text = lineMatches kind 0 ls := by rw [h.matchesIn_eq, htext]
  have hedits : r.edits text = ((lineMatches kind 0 ls).take
      (r.strategy.limit (ls.countP kind))).map Match.removal := by
    unfold Rule.edits
    simp only [hfound, length_lineMatches, hremoves]
    rfl
  have hspliced := splice_lineMatches kind ls [] rest 0 (r.strategy.limit (ls.countP kind))
  rw [List.nil_append, ← (splitLines_eq_iff.mp htext).1] at hspliced
  unfold Rule.apply
  dsimp only
  rw [hedits, List.length_map, List.length_take, length_lineMatches]
  exact congrArg (·, _) hspliced

/-- A rule that may take out all lines of a kind leaves none. -/
theorem FindsLines.matchesIn_apply_eq_nil {r : Rule} (h : FindsLines r.pattern kind)
    (hlimit : ∀ n, r.strategy.limit n = n)
    (hremoves : ∀ m, r.strategy.rewrite r.pattern text m = []) :
    r.pattern.matchesIn (r.apply text).1 = [] := by
  obtain ⟨ls, rest, hsplit⟩ : ∃ ls rest, splitLines text = (ls, rest) := ⟨_, _, rfl⟩
  have happly := h.apply_eq hsplit hremoves
  rw [hlimit, iterate_eraseP_of_countP_le (Nat.le_refl _)] at happly
  rw [happly, h.matchesIn_eq, splitLines_sublist hsplit List.filter_sublist,
    ← List.length_eq_zero_iff, length_lineMatches, List.countP_eq_zero]
  intro l hl
  simpa using List.of_mem_filter hl

end

end Amend
