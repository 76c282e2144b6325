import Amend.Proofs.Pattern.Place
import Amend.Proofs.Pattern.Reading
import Amend.Proofs.Pattern.Scan

/-!
# Patterns for plain text

A text that is escaped is read character by character into the expression for itself, whatever its
characters mean in patterns (`Pattern.ofString?_escape`). The pattern then finds the places where
the text stands, from left to right and without overlaps (`Pattern.exists_occurrences_matchesIn`).
-/

set_option autoImplicit false

namespace Amend

namespace Pattern

/-- The expression for a text that stands for itself. -/
def literalRegex (w : List Char) : Regex :=
  .concat (w.map fun c => .set (· == c))

/-! ## What is read -/

theorem regexOf_literals (w : List Char) :
    (Piece.concat (literals w)).regexOf = literalRegex w := by
  rw [regexOf_concat _ fun _ => isSome_of_mem_literals, map_regexOf_literals, literalRegex]

theorem weight_literals (w : List Char) :
    ((literals w).map Piece.weight).sum = (String.ofList w).utf8ByteSize := by
  induction w with
  | nil => rfl
  | cons c w ih =>
    rw [String.ofList_cons, String.utf8ByteSize_append, String.utf8ByteSize_singleton, ← ih]
    rfl

theorem length_le_flatMap_escapeChar (w : List Char) :
    w.length ≤ (w.flatMap escapeChar).length := by
  induction w with
  | nil => exact Nat.le_refl 0
  | cons c w ih =>
    have hchar : 1 ≤ (escapeChar c).length := by
      unfold escapeChar
      split <;> simp
    rw [List.flatMap_cons, List.length_append, List.length_cons]
    omega

/-- An escaped text that is not empty is read as a pattern for itself, unless it is too large. -/
theorem ofString?_escape {text : String} {limit : Nat} (h : text.toList ≠ []) :
    ofString? (escape text) limit =
      if limit < text.utf8ByteSize then .error .tooLarge
      else .ok { source := escape text, regex := literalRegex text.toList, names := [] } := by
  have hread : readFrom ((escape text).toList.length + 1) { limit } (escape text).toList =
      .ok { pieces := (literals text.toList).reverse, limit } := by
    have hlength := length_le_flatMap_escapeChar text.toList
    rw [toList_escape]
    obtain ⟨k, hk⟩ : ∃ k, (text.toList.flatMap escapeChar).length + 1 =
        (k + 1) + text.toList.length :=
      ⟨(text.toList.flatMap escapeChar).length - text.toList.length, by omega⟩
    have hescape := readFrom_escape text.toList (k + 1) { limit } rfl []
    rw [List.append_nil, List.append_nil] at hescape
    rw [hk, hescape]
    rfl
  have hwhole : ({ pieces := (literals text.toList).reverse, limit } : Reading).whole =
      Piece.concat (literals text.toList) := by
    simp [Reading.whole, Piece.oneOf]
  have hdepth : (Piece.concat (literals text.toList)).depth ≤ 1 :=
    depth_concat_le fun _ hp => Nat.le_of_eq (depth_of_mem_literals hp)
  have hweight : (Piece.concat (literals text.toList)).weight = text.utf8ByteSize := by
    rw [weight_concat _ (by simpa [literals] using h), weight_literals, String.ofList_toList]
  unfold ofString? read
  rw [hread]
  simp only [hwhole, regexOf_literals, hweight, List.isEmpty_nil, Bool.not_true,
    Bool.false_eq_true, if_false]
  rw [if_neg (by rw [maxDepth]; omega)]
  by_cases hlarge : limit < text.utf8ByteSize
  · rw [if_pos hlarge, if_pos hlarge]
  · rw [if_neg hlarge, if_neg hlarge]
    rfl

end Pattern

/-! ## What is found -/

namespace Pattern

variable {w text : List Char}

/-- The expression for a text matches where this text stands. -/
theorem takes_literalRegex {i : Nat} {b : Point} (hi : i ≤ text.length) :
    Regex.Takes text.toArray (literalRegex w) ⟨i, []⟩ b ↔
      StandsAt w text i ∧ b = ⟨i + w.length, []⟩ := by
  have hsplit : text.toArray.toList = text.take i ++ text.drop i :=
    (List.take_append_drop i text).symm
  have hlength : (text.take i).length = i := by simpa using hi
  have htakes : Regex.Takes text.toArray (.concat (w.map fun c => .set (· == c)))
      ⟨(text.take i).length, []⟩ b ↔ _ := Regex.takes_literal hsplit
  rw [hlength, List.length_append, hlength] at htakes
  rw [literalRegex, htakes]
  constructor
  · intro ⟨rest, hrest, hb⟩
    refine ⟨⟨text.take i, rest, ?_, hlength⟩, hb⟩
    rw [List.append_assoc, ← hrest, List.take_append_drop]
  · intro ⟨⟨before, after, htext, hbefore⟩, hb⟩
    refine ⟨after, ?_, hb⟩
    rw [htext, List.append_assoc, ← hbefore, List.drop_left]

theorem neverEmpty_literalRegex {text : Array Char} (h : w ≠ []) :
    Regex.NeverEmpty text (literalRegex w) := by
  obtain ⟨c, w, rfl⟩ := List.exists_cons_of_ne_nil h
  exact Regex.neverEmpty_concat List.mem_cons_self (Regex.neverEmpty_set _)

theorem exists_occurrences_of_scan {start : Nat} {ms : List Match}
    (h : Regex.Scan text.toArray (literalRegex w) start ms) :
    ∃ is, Occurrences w text start is ∧ ms = is.map fun i => ⟨i, i + w.length, []⟩ := by
  induction h with
  | done hnone =>
    refine ⟨[], .done fun i hi hstands => ?_, rfl⟩
    have hsize := hstands.le_length
    exact hnone i hi (by simpa using hsize) _ ((takes_literalRegex hsize).mpr ⟨hstands, rfl⟩)
  | @found start m ms hle hsize htakes hskip _ ih =>
    obtain ⟨is, his, rfl⟩ := ih
    have hsize : m.start ≤ text.length := by simpa using hsize
    obtain ⟨hstands, hpoint⟩ := (takes_literalRegex hsize).mp htakes
    obtain ⟨hstop, hsaved⟩ := Point.mk.inj hpoint
    refine ⟨m.start :: is, .found hle hstands (fun j hj hlt hstandsj => ?_) (hstop ▸ his), ?_⟩
    · exact hskip j hj hlt _ ((takes_literalRegex hstandsj.le_length).mpr ⟨hstandsj, rfl⟩)
    · rw [List.map_cons, ← hstop, ← hsaved]

/-- A pattern for a text finds the places where it stands. -/
theorem exists_occurrences_matchesIn {p : Pattern} (hp : p.regex = literalRegex w) (hw : w ≠ [])
    (text : List Char) : ∃ is, Occurrences w text 0 is ∧
      p.matchesIn text = is.map fun i => ⟨i, i + w.length, []⟩ := by
  have hscan := p.scan_matchesIn text (by rw [hp]; exact neverEmpty_literalRegex hw)
  rw [hp] at hscan
  exact exists_occurrences_of_scan hscan

end Pattern

end Amend
