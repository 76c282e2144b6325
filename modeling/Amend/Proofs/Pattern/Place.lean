import Amend.Pattern.Basic

/-!
# Places in a text

Where a text stands in another one, and the places where it is found from left to right without
overlaps. There is one such list of places (`Occurrences.unique`).
-/

set_option autoImplicit false

namespace Amend

/-! ## Parts of a text -/

theorem slice_append_drop (text : List Char) {a b : Nat} (h : a ≤ b) :
    slice text a b ++ text.drop b = text.drop a := by
  have hdrop : (text.drop a).drop (b - a) = text.drop b := by
    rw [List.drop_drop, Nat.add_sub_cancel' h]
  rw [slice, ← hdrop, List.take_append_drop]

theorem length_slice {text : List Char} {a b : Nat} (h : b ≤ text.length) :
    (slice text a b).length = b - a := by
  rw [slice, List.length_take, List.length_drop]
  omega

theorem slice_length (text : List Char) (a : Nat) : slice text a text.length = text.drop a := by
  rw [slice, ← List.length_drop, List.take_length]

/-! ## Where a text stands -/

/-- `w` stands at position `i` of `text`. -/
def StandsAt (w text : List Char) (i : Nat) : Prop :=
  ∃ before after, text = before ++ w ++ after ∧ before.length = i

section
variable {w text : List Char} {start i : Nat}

theorem StandsAt.add_length_le (h : StandsAt w text i) : i + w.length ≤ text.length := by
  obtain ⟨before, after, rfl, rfl⟩ := h
  simp only [List.length_append]
  omega

theorem StandsAt.le_length (h : StandsAt w text i) : i ≤ text.length :=
  Nat.le_of_add_right_le h.add_length_le

theorem standsAt_iff : StandsAt w text i ↔ i ≤ text.length ∧ w <+: text.drop i := by
  constructor
  · intro h
    refine ⟨h.le_length, ?_⟩
    obtain ⟨before, after, rfl, rfl⟩ := h
    rw [List.append_assoc, List.drop_left]
    exact List.prefix_append ..
  · intro ⟨hi, after, hafter⟩
    refine ⟨text.take i, after, ?_, List.length_take_of_le hi⟩
    rw [List.append_assoc, hafter, List.take_append_drop]

instance : Decidable (StandsAt w text i) :=
  decidable_of_iff _ standsAt_iff.symm

theorem StandsAt.drop_eq (h : StandsAt w text i) : text.drop i = w ++ text.drop (i + w.length) := by
  obtain ⟨before, after, rfl, rfl⟩ := h
  rw [List.append_assoc, List.drop_left, ← List.append_assoc, ← List.length_append, List.drop_left]

theorem StandsAt.slice_eq (h : StandsAt w text i) : slice text i (i + w.length) = w := by
  rw [slice, h.drop_eq, Nat.add_sub_cancel_left, List.take_left]

/-- Where a text does not stand up to a position, what is before that is a gap. -/
theorem not_prefix_of_skip (hle : start ≤ i) (hi : i ≤ text.length)
    (hskip : ∀ j, start ≤ j → j < i → ¬ StandsAt w text j) {u v : List Char}
    (huv : slice text start i = u ++ v) (hv : v ≠ []) : ¬ w <+: v ++ text.drop i := by
  have hlength : u.length + v.length = i - start := by
    rw [← length_slice hi, huv, List.length_append]
  have hpos := List.length_pos_iff.mpr hv
  have hdrop : text.drop (start + u.length) = v ++ text.drop i := by
    rw [← List.drop_drop, ← slice_append_drop text hle, huv, List.append_assoc, List.drop_left]
  intro hprefix
  refine hskip (start + u.length) (by omega) (by omega) (standsAt_iff.mpr ⟨by omega, ?_⟩)
  rwa [hdrop]

/-! ## Occurrences -/

/-- The places where `w` stands in `text`, as they are found from `start` on: each is the first one
from the end of the one before it on. -/
inductive Occurrences (w text : List Char) : Nat → List Nat → Prop
  | done {start : Nat} : (∀ i, start ≤ i → ¬ StandsAt w text i) → Occurrences w text start []
  | found {start i : Nat} {is : List Nat} : start ≤ i → StandsAt w text i →
    (∀ j, start ≤ j → j < i → ¬ StandsAt w text j) → Occurrences w text (i + w.length) is →
    Occurrences w text start (i :: is)

theorem Occurrences.unique {is is' : List Nat} (h : Occurrences w text start is)
    (h' : Occurrences w text start is') : is = is' := by
  induction h generalizing is' with
  | done hnone =>
    cases h' with
    | done => rfl
    | found hle hstands => exact absurd hstands (hnone _ hle)
  | @found start i is hle hstands hskip _ ih =>
    cases h' with
    | done hnone => exact absurd hstands (hnone _ hle)
    | @found _ i' _ hle' hstands' hskip' hrest' =>
      obtain rfl : i = i' := by
        rcases Nat.lt_trichotomy i i' with hlt | heq | hlt
        · exact absurd hstands (hskip' i hle hlt)
        · exact heq
        · exact absurd hstands' (hskip i' hle' hlt)
      rw [ih hrest']

end

end Amend
