import Amend.Proofs.Pattern.Place
import Amend.Proofs.Rule.AccessPattern
import Amend.Proofs.Rule.Splicing
import Amend.Rule.Template

/-!
# Placeholders

A placeholder is an identifier in braces. Since braces are no part of identifiers, placeholders do
not overlap (`PlaceholderAt.add_length_le`), and a search from left to right finds them all: its
matches are the placeholders of the source in their order (`marks_matchesIn`).
-/

set_option autoImplicit false

namespace Amend.Template

/-- The placeholder for `name` as it is written. -/
def mark (name : String) : List Char :=
  '{' :: (name.toList ++ ['}'])

/-- A placeholder for `name` stands at position `i` of `source`. -/
def PlaceholderAt (source : List Char) (name : String) (i : Nat) : Prop :=
  isIdentifier name.toList = true ∧ StandsAt (mark name) source i

/-- The pattern of placeholders as it is written. -/
def placeholderSource : String := "\\\x7b([A-Za-z_][A-Za-z0-9_]*)\\\x7d"

/-- The pattern of placeholders. Its group is the name. -/
def placeholderPattern : Pattern where
  source := placeholderSource
  regex := .concat [.set (· == '{'), .group 1 (FieldSpec.receiverRegex none), .set (· == '}')]
  names := []

theorem ofString?_placeholderSource :
    Pattern.ofString? placeholderSource = .ok placeholderPattern :=
  rfl

/-! ## Placeholders do not overlap -/

section
variable {source : List Char} {name name' : String} {i j : Nat}

theorem length_mark (name : String) : (mark name).length = name.length + 2 := by
  rw [mark, List.length_cons, List.length_append, String.length_toList, List.length_singleton]

/-- No brace opens within a placeholder. -/
theorem mark_getElem?_ne (h : isIdentifier name.toList = true) {k : Nat} (hk : 0 < k) :
    (mark name)[k]? ≠ some '{' := by
  obtain ⟨k, rfl⟩ := Nat.exists_eq_succ_of_ne_zero (Nat.ne_of_gt hk)
  intro hbrace
  have hmem : '{' ∈ name.toList ++ ['}'] := List.mem_of_getElem? hbrace
  rcases List.mem_append.mp hmem with hname | hclose
  · exact absurd (isIdentifierChar_of_isIdentifier h _ hname) (by decide)
  · exact absurd (List.mem_singleton.mp hclose) (by decide)

theorem PlaceholderAt.opens (h : PlaceholderAt source name i) : source[i]? = some '{' := by
  obtain ⟨-, before, after, rfl, rfl⟩ := h
  simp [mark]

/-- A placeholder ends before the next one begins. -/
theorem PlaceholderAt.add_length_le (h : PlaceholderAt source name i)
    (h' : PlaceholderAt source name' j) (hlt : i < j) : i + (mark name).length ≤ j := by
  by_contra hwithin
  obtain ⟨k, rfl⟩ := Nat.exists_eq_add_of_lt hlt
  have hopens := h'.opens
  obtain ⟨hname, before, after, rfl, rfl⟩ := h
  refine mark_getElem?_ne hname (Nat.succ_pos k) ?_
  rw [← hopens, List.append_assoc, List.getElem?_append_right (by omega),
    List.getElem?_append_left (by omega)]
  congr 1
  omega

theorem endsRun_close (cs : List Char) : EndsRun ('}' :: cs) :=
  rfl

theorem PlaceholderAt.unique (h : PlaceholderAt source name i)
    (h' : PlaceholderAt source name' i) : name = name' := by
  have hsame := h.2.drop_eq.symm.trans h'.2.drop_eq
  simp only [mark, List.cons_append, List.append_assoc, List.cons.injEq, true_and] at hsame
  obtain ⟨hname, -⟩ := run_unique (isIdentifierChar_of_isIdentifier h.1)
    (isIdentifierChar_of_isIdentifier h'.1) (endsRun_close _) (endsRun_close _) hsame
  exact String.toList_inj.mp hname

end

/-! ## Finding them -/

/-- The name that a match of the pattern of placeholders has found. -/
def nameOf (source : List Char) (m : Match) : String :=
  .ofList (m.textOf source 1)

/-- The match for a placeholder for `name` at position `i`. -/
def matchOf (name : String) (i : Nat) : Match :=
  ⟨i, i + (mark name).length, [(3, i + 1 + name.length), (2, i + 1)]⟩

/-- `ms` are the placeholders of a source from `start` on, in order. -/
inductive Marks (source : List Char) : Nat → List Match → Prop
  | done {start : Nat} : (∀ i name, start ≤ i → ¬ PlaceholderAt source name i) →
    Marks source start []
  | found {start i : Nat} {name : String} {ms : List Match} : start ≤ i →
    PlaceholderAt source name i →
    (∀ j name', start ≤ j → j < i → ¬ PlaceholderAt source name' j) →
    Marks source (i + (mark name).length) ms → Marks source start (matchOf name i :: ms)

section
variable {text : Array Char} {before rest : List Char} {saved : List (Nat × Nat)} {b : Point}
  (h : text.toList = before ++ rest)
include h

/-- The expression for a receiver of any name matches the identifiers. -/
theorem takes_identifier :
    Regex.Takes text (FieldSpec.receiverRegex none) ⟨before.length, saved⟩ b ↔
      ∃ w rest', rest = w ++ rest' ∧ isIdentifier w = true ∧ b = ⟨(before ++ w).length, saved⟩ := by
  have hreceiver : ∀ w, FieldSpec.IsReceiver none w ↔ isIdentifier w = true :=
    fun w => and_iff_left fun r hr => by cases hr
  have htakes : Regex.Takes text (FieldSpec.receiverRegex none) ⟨before.length, saved⟩ b ↔ _ :=
    FieldSpec.takes_receiverRegex (fun r hr => by cases hr) h
  simpa only [hreceiver] using htakes

/-- The pattern of placeholders matches the placeholders, and its group is the name. -/
theorem takes_placeholder_of_split :
    Regex.Takes text placeholderPattern.regex ⟨before.length, []⟩ b ↔
      ∃ name rest', rest = mark name ++ rest' ∧ isIdentifier name.toList = true ∧
        b = ⟨(matchOf name before.length).stop, (matchOf name before.length).saved⟩ := by
  have hregex : placeholderPattern.regex = .concat [.set (· == '{'),
    .group 1 (FieldSpec.receiverRegex none), .set (· == '}')] := rfl
  rw [hregex]
  simp only [Regex.takes_concat_cons, Regex.takes_concat_nil, Regex.takes_group, exists_eq_right']
  constructor
  · rintro ⟨_, hopen, _, ⟨_, hgroup, rfl⟩, hclose⟩
    obtain ⟨c, rest, rfl, hc, rfl⟩ := (Regex.takes_set_of_split h).mp hopen
    obtain rfl : c = '{' := eq_of_beq hc
    have h₁ : text.toList = (before ++ ['{']) ++ rest := by rw [h]; simp
    obtain ⟨w, rest, rfl, hw, rfl⟩ := (takes_identifier h₁).mp hgroup
    have h₂ : text.toList = (before ++ ['{'] ++ w) ++ rest := by rw [h₁]; simp
    obtain ⟨d, rest, rfl, hd, rfl⟩ := (Regex.takes_set_of_split h₂).mp hclose
    obtain rfl : d = '}' := eq_of_beq hd
    exact ⟨.ofList w, rest, by simp [mark], by simpa using hw, by
      simp [matchOf, length_mark]
      omega⟩
  · rintro ⟨name, rest, rfl, hname, rfl⟩
    have h₁ : text.toList = (before ++ ['{']) ++ (name.toList ++ '}' :: rest) := by
      rw [h]; simp [mark]
    have h₂ : text.toList = (before ++ ['{'] ++ name.toList) ++ '}' :: rest := by rw [h₁]; simp
    refine ⟨_, (Regex.takes_set_of_split h).mpr ⟨'{', _, rfl, rfl, rfl⟩, _,
      ⟨_, (takes_identifier h₁).mpr ⟨name.toList, '}' :: rest, rfl, hname, rfl⟩, rfl⟩,
      (Regex.takes_set_of_split h₂).mpr ⟨'}', rest, rfl, rfl, ?_⟩⟩
    simp [matchOf, length_mark, String.length_toList]
    omega

end

section
variable {source : List Char} {name : String} {start i : Nat} {ms : List Match} {b : Point}

theorem takes_placeholder (hi : i ≤ source.length) :
    Regex.Takes source.toArray placeholderPattern.regex ⟨i, []⟩ b ↔
      ∃ name, PlaceholderAt source name i ∧
        b = ⟨(matchOf name i).stop, (matchOf name i).saved⟩ := by
  have hsplit : source.toArray.toList = source.take i ++ source.drop i :=
    (List.take_append_drop i source).symm
  have htakes := takes_placeholder_of_split (b := b) hsplit
  rw [List.length_take_of_le hi] at htakes
  rw [htakes]
  constructor
  · intro ⟨name, rest, hrest, hname, hb⟩
    exact ⟨name, ⟨hname, standsAt_iff.mpr ⟨hi, rest, hrest.symm⟩⟩, hb⟩
  · intro ⟨name, ⟨hname, hstands⟩, hb⟩
    exact ⟨name, _, hstands.drop_eq, hname, hb⟩

theorem neverEmpty_placeholderPattern {text : Array Char} :
    Regex.NeverEmpty text placeholderPattern.regex :=
  Regex.neverEmpty_concat List.mem_cons_self (Regex.neverEmpty_set _)

theorem marks_of_scan (h : Regex.Scan source.toArray placeholderPattern.regex start ms) :
    Marks source start ms := by
  induction h with
  | done hnone =>
    refine .done fun i name hi hplaceholder => ?_
    have hsize := hplaceholder.2.le_length
    exact hnone i hi (by simpa using hsize) _
      ((takes_placeholder hsize).mpr ⟨name, hplaceholder, rfl⟩)
  | @found start m ms hle hsize htakes hskip _ ih =>
    have hsize : m.start ≤ source.length := by simpa using hsize
    obtain ⟨name, hplaceholder, hpoint⟩ := (takes_placeholder hsize).mp htakes
    have hm : m = matchOf name m.start :=
      congrArg (fun p : Point => Match.mk m.start p.pos p.saved) hpoint
    rw [hm]
    refine .found hle hplaceholder (fun j name' hj hlt hplaceholder' => ?_) (hm ▸ ih)
    exact hskip j hj hlt _
      ((takes_placeholder hplaceholder'.2.le_length).mpr ⟨name', hplaceholder', rfl⟩)

/-- The matches of the pattern of placeholders are the placeholders. -/
theorem marks_matchesIn (source : List Char) :
    Marks source 0 (placeholderPattern.matchesIn source) :=
  marks_of_scan (placeholderPattern.scan_matchesIn source neverEmpty_placeholderPattern)

/-! ## What is found -/

theorem matched_matchOf (h : PlaceholderAt source name i) :
    (matchOf name i).matched source = mark name :=
  h.2.slice_eq

theorem nameOf_matchOf (h : PlaceholderAt source name i) :
    nameOf source (matchOf name i) = name := by
  have hname : StandsAt name.toList source (i + 1) := by
    obtain ⟨-, before, after, rfl, rfl⟩ := h
    exact ⟨before ++ ['{'], '}' :: after, by simp [mark], by simp⟩
  have hgroup : (matchOf name i).group? 1 = some (i + 1, i + 1 + name.toList.length) := by
    rw [String.length_toList]
    rfl
  rw [nameOf, Match.textOf, hgroup]
  dsimp only
  rw [hname.slice_eq, String.ofList_toList]

/-- A placeholder is the first one or comes after it. -/
theorem PlaceholderAt.first_or_after (h : PlaceholderAt source name i)
    (hskip : ∀ j name', start ≤ j → j < i → ¬ PlaceholderAt source name' j) {j : Nat}
    {name' : String} (hj : start ≤ j) (h' : PlaceholderAt source name' j) :
    j = i ∧ name' = name ∨ i + (mark name).length ≤ j := by
  rcases Nat.lt_trichotomy j i with hlt | rfl | hlt
  · exact absurd h' (hskip j name' hj hlt)
  · exact .inl ⟨rfl, h'.unique h⟩
  · exact .inr (h.add_length_le h' hlt)

theorem Marks.mem_iff (h : Marks source start ms) {m : Match} :
    m ∈ ms ↔ ∃ i name, start ≤ i ∧ PlaceholderAt source name i ∧ m = matchOf name i := by
  induction h with
  | done hnone =>
    refine iff_of_false List.not_mem_nil fun ⟨i, name, hi, hplaceholder, _⟩ => ?_
    exact hnone i name hi hplaceholder
  | @found start i name ms hle hplaceholder hskip _ ih =>
    constructor
    · intro hm
      rcases List.mem_cons.mp hm with rfl | hm
      · exact ⟨i, name, hle, hplaceholder, rfl⟩
      · obtain ⟨j, name', hj, hplaceholder', rfl⟩ := ih.mp hm
        exact ⟨j, name', by omega, hplaceholder', rfl⟩
    · rintro ⟨j, name', hj, hplaceholder', rfl⟩
      rcases hplaceholder.first_or_after hskip hj hplaceholder' with ⟨rfl, rfl⟩ | hafter
      · exact List.mem_cons_self
      · exact List.mem_cons_of_mem _ (ih.mpr ⟨j, name', hafter, hplaceholder', rfl⟩)

theorem Marks.eq_nil_iff (h : Marks source 0 ms) :
    ms = [] ↔ ∀ i name, ¬ PlaceholderAt source name i := by
  rw [List.eq_nil_iff_forall_not_mem]
  constructor
  · intro hnil i name hplaceholder
    exact hnil _ (h.mem_iff.mpr ⟨i, name, Nat.zero_le i, hplaceholder, rfl⟩)
  · intro hnone m hm
    obtain ⟨i, name, -, hplaceholder, -⟩ := h.mem_iff.mp hm
    exact hnone i name hplaceholder

theorem Marks.pairwise (h : Marks source start ms) :
    ms.Pairwise fun m m' => m.stop ≤ m'.start := by
  induction h with
  | done => exact .nil
  | found _ _ _ hrest ih =>
    refine .cons (fun m hm => ?_) ih
    obtain ⟨j, name', hj, -, rfl⟩ := hrest.mem_iff.mp hm
    exact hj

theorem Marks.follow (h : Marks source start ms) : Regex.Follow source.length start ms := by
  induction h with
  | done => trivial
  | found hle hplaceholder _ _ ih =>
    exact ⟨hle, Nat.le_add_right .., hplaceholder.2.add_length_le, ih⟩

end

end Amend.Template
