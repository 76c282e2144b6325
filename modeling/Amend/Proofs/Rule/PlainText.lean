import Amend.Proofs.Pattern.Literal
import Amend.Proofs.Rule.Accessor
import Amend.Proofs.Rule.Splicing
import Amend.Rule.Definition
import Mathlib.Tactic.IntervalCases

/-!
# Rules for plain text

A rule whose pattern is given as plain text is a search for this text. Whatever characters it has,
the pattern is read (`RuleDefinition.compile_exact`), and the rule replaces or removes the first
places where the text stands (`RuleDefinition.exact_finds_plainText`).
-/

set_option autoImplicit false

namespace Amend

/-! ## Replacing a text -/

/-- `cs` with `new` in the first `n` places where `old` stands, found from left to right. `old` must
not be empty. -/
def replaceAtMost (old new : List Char) : Nat → List Char → List Char
  | 0, cs => cs
  | _ + 1, [] => []
  | n + 1, c :: cs =>
    if old.isPrefixOf (c :: cs) then
      new ++ replaceAtMost old new n (cs.drop (old.length - 1))
    else c :: replaceAtMost old new (n + 1) cs
termination_by _ cs => cs.length
decreasing_by all_goals grind

section
variable {w new text gap rest : List Char} {start i k : Nat} {is : List Nat}

theorem replaceAtMost_zero (w new cs : List Char) : replaceAtMost w new 0 cs = cs := by
  rw [replaceAtMost]

theorem replaceAtMost_nil (w new : List Char) (k : Nat) : replaceAtMost w new k [] = [] := by
  cases k <;> rw [replaceAtMost]

theorem replaceAtMost_self (hw : w ≠ []) (new rest : List Char) (k : Nat) :
    replaceAtMost w new (k + 1) (w ++ rest) = new ++ replaceAtMost w new k rest := by
  obtain ⟨c, w, rfl⟩ := List.exists_cons_of_ne_nil hw
  rw [List.cons_append, replaceAtMost, if_pos (by simp [List.isPrefixOf_iff_prefix])]
  simp

/-- A gap in which the text does not begin is kept. -/
theorem replaceAtMost_gap (new : List Char)
    (h : ∀ u v, gap = u ++ v → v ≠ [] → ¬ w <+: v ++ rest) (k : Nat) :
    replaceAtMost w new (k + 1) (gap ++ rest) = gap ++ replaceAtMost w new (k + 1) rest := by
  induction gap with
  | nil => rfl
  | cons c gap ih =>
    have hhead : ¬ w <+: c :: (gap ++ rest) := h [] (c :: gap) rfl (List.cons_ne_nil _ _)
    rw [List.cons_append, replaceAtMost, if_neg (by rwa [List.isPrefixOf_iff_prefix]),
      ih fun u v huv => h (c :: u) v (congrArg (c :: ·) huv)]
    rfl

/-! ## The places where a text stands -/

/-- The match of a text at a position. -/
def matchAt (w : List Char) (i : Nat) : Match :=
  ⟨i, i + w.length, []⟩

/-- The gaps between the first occurrences of a text, with other texts between them. -/
theorem weave_occurrences (hw : w ≠ []) (h : Occurrences w text start is)
    (hstart : start ≤ text.length) (new : List Char) (k : Nat) :
    let ms := (is.take k).map (matchAt w)
    weave (remainder text start ms) (gaps text start ms) (ms.map fun _ => new) =
      replaceAtMost w new k (text.drop start) := by
  induction h generalizing k with
  | @done start hnone =>
    rw [List.take_nil]
    cases k with
    | zero => exact (replaceAtMost_zero ..).symm
    | succ k =>
      have hend := slice_length text start
      have hgap := replaceAtMost_gap new (fun u v huv hv =>
        not_prefix_of_skip hstart (Nat.le_refl _) (fun j hj _ => hnone j hj) huv hv) k
      rw [List.drop_length, replaceAtMost_nil, List.append_nil, hend] at hgap
      exact hgap.symm
  | @found start i is hle hstands hskip _ ih =>
    cases k with
    | zero => exact (replaceAtMost_zero ..).symm
    | succ k =>
      have hi := hstands.le_length
      have hgap := replaceAtMost_gap new
        (fun u v huv hv => not_prefix_of_skip hle hi hskip huv hv) k
      rw [slice_append_drop text hle, hstands.drop_eq, replaceAtMost_self hw] at hgap
      rw [hgap, ← ih hstands.add_length_le k]
      rfl

end

/-- What a rule does to a text in which its pattern finds the occurrences of another. -/
theorem Rule.apply_of_occurrences (r : Rule) (new : List Char) {w text : List Char} {is : List Nat}
    (hw : w ≠ []) (his : Occurrences w text 0 is)
    (hms : r.pattern.matchesIn text = is.map (matchAt w)) (hnew : ∀ m, r.replacing text m = new) :
    r.apply text = (replaceAtMost w new (r.limitIn text) text, r.limitIn text) := by
  have hreplacing : r.replacing text = fun _ => new := funext hnew
  have hweave := weave_occurrences hw his (Nat.zero_le _) new (r.limitIn text)
  refine Prod.ext ?_ (r.count_apply_eq text)
  rw [text_apply_eq, hms, ← List.map_take, hreplacing]
  exact hweave

namespace RuleDefinition

/-! ## Definitions with a plain text -/

/-- The pattern for a text that stands for itself. -/
def exactPattern (text : String) : Pattern where
  source := Pattern.escape text
  regex := Pattern.literalRegex text.toList
  names := []

variable {d : RuleDefinition}

/-- A plain text that is not empty is always read as a pattern, unless it is too large. -/
theorem compile_exact (hexact : d.exact = true) (hpattern : d.pattern.toList ≠ [])
    (hsize : d.pattern.utf8ByteSize ≤ Pattern.Reading.maxWeight) :
    compile d.patternSource = .ok (exactPattern d.pattern) := by
  have hnonempty : (Pattern.escape d.pattern).isEmpty = false := by
    have hlength := Pattern.length_le_flatMap_escapeChar d.pattern.toList
    have hpos := List.length_pos_iff.mpr hpattern
    rw [← Bool.not_eq_true, String.isEmpty_iff, ← String.toList_eq_nil_iff, Pattern.toList_escape,
      ← List.length_eq_zero_iff]
    omega
  rw [patternSource, if_pos hexact, compile, hnonempty, if_neg Bool.false_ne_true,
    Pattern.ofString?_escape hpattern, if_neg (Nat.not_lt.mpr hsize)]
  rfl

theorem bound?_eq_ok {max : Option Nat} (h : max ≠ some 0) :
    ∃ most : Option Bound, bound? max = .ok most ∧ most.map Bound.count = max := by
  cases max with
  | none => exact ⟨none, rfl, rfl⟩
  | some n =>
    have hn : 0 < n := Nat.pos_of_ne_zero fun hzero => h (congrArg some hzero)
    refine ⟨some ⟨n, hn⟩, ?_, rfl⟩
    rw [bound?, bound, Bound.ofNat?, dif_pos hn]
    rfl

theorem toRule_of_replace {p : Pattern} {r : String} (hcompile : compile d.patternSource = .ok p)
    (hreplace : d.replace = some r) (hwrap : d.wrap = none) (hdelete : d.delete = false)
    (hid : Unicode.isBlank d.id = false) (hmax : d.maxApplications ≠ some 0) :
    ∃ most : Option Bound, most.map Bound.count = d.maxApplications ∧
      d.toRule = .ok ⟨d.id, d.description, p, .substitution r most⟩ := by
  obtain ⟨most, hmost, hcount⟩ := bound?_eq_ok hmax
  refine ⟨most, hcount, ?_⟩
  simp only [toRule, hreplace, hwrap, hdelete, hcompile, checkId, hid, hmost]
  rfl

theorem toRule_of_delete {p : Pattern} (hcompile : compile d.patternSource = .ok p)
    (hreplace : d.replace = none) (hwrap : d.wrap = none) (hdelete : d.delete = true)
    (hid : Unicode.isBlank d.id = false) (most : Bound)
    (hmax : d.maxApplications = some most.count) :
    d.toRule = .ok ⟨d.id, d.description, p, .scopedDeletion most⟩ := by
  have hbound : bound most.count = .ok most := by
    rw [bound, Bound.ofNat?, dif_pos most.count_pos]
  simp only [toRule, hreplace, hwrap, hdelete, hmax, hcompile, checkId, hid]
  simp only [Except.mapError, bind, Except.bind, hbound]
  rfl

/-- A plain text that is not empty is read as a pattern whatever its characters are, and the pattern
finds the places where the text stands. So a rule that puts a text without dollar signs in its place
does so in the first of these places, as far as its bound allows, and a scoped deletion removes the
first of them, but always leaves the last. -/
theorem exact_finds_plainText (d : RuleDefinition) (hexact : d.exact = true)
    (hpattern : d.pattern.toList ≠ [])
    (hsize : d.pattern.utf8ByteSize ≤ Pattern.Reading.maxWeight) :
    let w := d.pattern.toList
    ∃ p, compile d.patternSource = .ok p ∧
      (∀ text, ∃ is, Occurrences w text 0 is ∧
        p.matchesIn text = is.map fun i => ⟨i, i + w.length, []⟩) ∧
      (∀ r, d.replace = some r → d.wrap = none → d.delete = false →
        Unicode.isBlank d.id = false → d.maxApplications ≠ some 0 →
        ∃ rule, d.toRule = .ok rule ∧ rule.pattern = p ∧ ('$' ∉ r.toList → ∀ text,
          ∃ is, Occurrences w text 0 is ∧
            let k := d.maxApplications.elim is.length (min · is.length)
            rule.apply text = (replaceAtMost w r.toList k text, k))) ∧
      ∀ n, d.delete = true → d.replace = none → d.wrap = none →
        Unicode.isBlank d.id = false → d.maxApplications = some n → n ≠ 0 →
        ∃ rule, d.toRule = .ok rule ∧ rule.pattern = p ∧ ∀ text,
          ∃ is, Occurrences w text 0 is ∧
            let k := min n (is.length - 1)
            rule.apply text = (replaceAtMost w [] k text, k) := by
  intro w
  have hcompile := compile_exact hexact hpattern hsize
  have hfinds := Pattern.exists_occurrences_matchesIn (p := exactPattern d.pattern) rfl hpattern
  refine ⟨exactPattern d.pattern, hcompile, hfinds, ?_, ?_⟩
  · intro r hreplace hwrap hdelete hid hmax
    obtain ⟨most, hmost, hrule⟩ := toRule_of_replace hcompile hreplace hwrap hdelete hid hmax
    refine ⟨_, hrule, rfl, fun hdollar text => ?_⟩
    obtain ⟨is, his, hms⟩ := hfinds text
    refine ⟨is, his, ?_⟩
    have hnew : ∀ m, Replacement.expand (exactPattern d.pattern) m text r = r.toList := by
      intro m
      have hread := Replacement.read_append hdollar []
      rw [List.append_nil, Replacement.read, List.append_nil] at hread
      rw [Replacement.expand, hread, Replacement.flatMap_ofPart_char]
    have happly := Rule.apply_of_occurrences
      ⟨d.id, d.description, exactPattern d.pattern, .substitution r most⟩ r.toList hpattern his hms
      hnew
    have hlimit : (most.elim is.length (min ·.count is.length)) =
        d.maxApplications.elim is.length (min · is.length) := by
      rw [← hmost]
      cases most <;> rfl
    rw [Rule.limitIn_eq, hms, List.length_map] at happly
    rw [← hlimit]
    exact happly
  · intro n hdelete hreplace hwrap hid hmax hn
    let most : Bound := ⟨n, Nat.pos_of_ne_zero hn⟩
    have hrule := toRule_of_delete hcompile hreplace hwrap hdelete hid most hmax
    refine ⟨_, hrule, rfl, fun text => ?_⟩
    obtain ⟨is, his, hms⟩ := hfinds text
    refine ⟨is, his, ?_⟩
    have happly := Rule.apply_of_occurrences
      ⟨d.id, d.description, exactPattern d.pattern, .scopedDeletion most⟩ [] hpattern his hms
      fun _ => rfl
    rw [Rule.limitIn_eq, hms, List.length_map] at happly
    exact happly

/-- A deletion of a text that overlaps with itself and has a character with a meaning of its own. -/
def dottedPair : RuleDefinition where
  id := "pair"
  description := none
  pattern := "a.a"
  exact := true
  replace := none
  wrap := none
  delete := true
  maxApplications := some 5

theorem occurrences_dottedPair : Occurrences "a.a".toList "a.a.a a.a aba".toList 0 [0, 6] := by
  refine .found (Nat.le_refl 0) (by decide) (fun j _ hlt => absurd hlt (Nat.not_lt_zero j)) ?_
  refine .found (by decide) (by decide) (fun j hle hlt => ?_) (.done fun i hle hstands => ?_)
  · have hle : 3 ≤ j := hle
    interval_cases j <;> decide
  · have hle : 9 ≤ i := hle
    have hi : i ≤ 13 := hstands.le_length
    revert hstands
    interval_cases i <;> decide

/-- The dot stands for itself, and of two occurrences that overlap the first counts. -/
theorem dottedPair_removed :
    ∃ rule, dottedPair.toRule = .ok rule ∧
      rule.pattern.matchesIn "a.a.a a.a aba".toList = [⟨0, 3, []⟩, ⟨6, 9, []⟩] ∧
      rule.apply "a.a.a a.a aba".toList = (".a a.a aba".toList, 1) := by
  obtain ⟨p, -, hfinds, -, hdelete⟩ :=
    exact_finds_plainText dottedPair rfl (by decide) (by decide)
  obtain ⟨rule, hrule, rfl, happly⟩ := hdelete 5 rfl rfl rfl (by decide) rfl (by decide)
  obtain ⟨is, his, hms⟩ := hfinds "a.a.a a.a aba".toList
  obtain ⟨is', his', hresult⟩ := happly "a.a.a a.a aba".toList
  obtain rfl := his.unique occurrences_dottedPair
  obtain rfl := his'.unique occurrences_dottedPair
  refine ⟨rule, hrule, hms, hresult.trans ?_⟩
  have hreplaced : replaceAtMost "a.a".toList [] 1 "a.a.a a.a aba".toList =
      ".a a.a aba".toList := by
    decide +kernel
  exact congrArg (·, 1) hreplaced

end RuleDefinition

end Amend
