import Mathlib.Data.List.Basic

/-!
# Lines

A text is in one way made up of lines that are ended and a rest that is not
(`splitLines_eq_iff`). So when lines are taken out, the others are still its lines
(`splitLines_sublist`).
-/

set_option autoImplicit false

namespace Amend

/-- The lines of a text that are ended, with their ends, and what comes after the last of them. -/
def splitLines : List Char → List (List Char) × List Char
  | [] => ([], [])
  | c :: cs =>
    let (ls, rest) := splitLines cs
    if c = '\n' then ([c] :: ls, rest)
    else
      match ls with
      | [] => ([], c :: rest)
      | l :: ls => ((c :: l) :: ls, rest)

/-- A line with its end. -/
def IsLine (l : List Char) : Prop :=
  ∃ w, '\n' ∉ w ∧ l = w ++ ['\n']

variable {text rest l : List Char} {ls : List (List Char)}

theorem IsLine.cons {c : Char} (hc : c ≠ '\n') (h : IsLine l) : IsLine (c :: l) := by
  obtain ⟨w, hw, rfl⟩ := h
  exact ⟨c :: w, by simp [Ne.symm hc, hw], rfl⟩

theorem splitLines_spec (text : List Char) :
    text = (splitLines text).1.flatten ++ (splitLines text).2 ∧
      (∀ l ∈ (splitLines text).1, IsLine l) ∧ '\n' ∉ (splitLines text).2 := by
  induction text with
  | nil => exact ⟨rfl, nofun, List.not_mem_nil⟩
  | cons c cs ih =>
    obtain ⟨hcs, hlines, hrest⟩ := ih
    rw [splitLines]
    cases hsplit : splitLines cs with
    | mk ls rest =>
      rw [hsplit] at hcs hlines hrest
      dsimp only at hcs hlines hrest ⊢
      split
      · next hc =>
        refine ⟨by simp [hcs], fun l hl => ?_, hrest⟩
        rcases List.mem_cons.mp hl with rfl | hl
        · exact ⟨[], List.not_mem_nil, by rw [hc]; rfl⟩
        · exact hlines l hl
      · next hc =>
        cases ls with
        | nil => exact ⟨by simp [hcs], nofun, by simp [Ne.symm hc, hrest]⟩
        | cons l ls =>
          refine ⟨by simp [hcs], fun l' hl' => ?_, hrest⟩
          rcases List.mem_cons.mp hl' with rfl | hl'
          · exact (hlines l List.mem_cons_self).cons hc
          · exact hlines l' (List.mem_cons_of_mem _ hl')

theorem splitLines_of_notMem (h : '\n' ∉ rest) : splitLines rest = ([], rest) := by
  induction rest with
  | nil => rfl
  | cons c cs ih =>
    rw [List.mem_cons, not_or] at h
    rw [splitLines, ih h.2]
    exact if_neg (Ne.symm h.1)

theorem splitLines_line_append (h : IsLine l) (text : List Char) :
    splitLines (l ++ text) = (l :: (splitLines text).1, (splitLines text).2) := by
  obtain ⟨w, hw, rfl⟩ := h
  induction w with
  | nil => rfl
  | cons c w ih =>
    rw [List.mem_cons, not_or] at hw
    rw [List.cons_append, List.cons_append, splitLines, ih hw.2]
    exact if_neg (Ne.symm hw.1)

/-- There is one way to split a text into lines and a rest. -/
theorem splitLines_eq_iff : splitLines text = (ls, rest) ↔
    text = ls.flatten ++ rest ∧ (∀ l ∈ ls, IsLine l) ∧ '\n' ∉ rest := by
  constructor
  · intro h
    have hspec := splitLines_spec text
    rwa [h] at hspec
  · rintro ⟨rfl, hlines, hrest⟩
    induction ls with
    | nil => exact splitLines_of_notMem hrest
    | cons l ls ih =>
      rw [List.flatten_cons, List.append_assoc,
        splitLines_line_append (hlines l List.mem_cons_self),
        ih fun l' hl' => hlines l' (List.mem_cons_of_mem _ hl')]

theorem splitLines_sublist {ls' : List (List Char)} (h : splitLines text = (ls, rest))
    (hsub : ls'.Sublist ls) : splitLines (ls'.flatten ++ rest) = (ls', rest) := by
  obtain ⟨-, hlines, hrest⟩ := splitLines_eq_iff.mp h
  exact splitLines_eq_iff.mpr ⟨rfl, fun l hl => hlines l (hsub.subset hl), hrest⟩

end Amend
