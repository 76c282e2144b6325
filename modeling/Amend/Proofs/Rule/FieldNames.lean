import Amend.Rule.FieldAccess
import Mathlib.Data.List.Nodup
import Mathlib.Data.String.Basic

/-!
# The names of a field specification

The rules of a field specification come in the order of its distinct names
(`FieldSpec.pairwise_sortedNames`), and lists of the same names come to the same
(`FieldSpec.sortedNames_congr`).
-/

set_option autoImplicit false

namespace Amend

theorem occursIn_iff {old cs : List Char} : occursIn old cs = true ↔ old <:+: cs := by
  induction cs with
  | nil => simp [occursIn]
  | cons c cs ih =>
    simp only [occursIn, Bool.or_eq_true, List.isPrefixOf_iff_prefix, ih, List.infix_cons_iff]

namespace FieldSpec

variable {name n : String} {ns : List String} {spec : FieldSpec}

theorem mem_insertName : n ∈ insertName name ns ↔ n = name ∨ n ∈ ns := by
  induction ns with
  | nil => simp [insertName]
  | cons m ns ih =>
    rw [insertName]
    split
    · exact List.mem_cons
    · split
      · next heq => simp [heq]
      · simp [ih, or_left_comm]

/-- A name is put in its place. -/
theorem pairwise_insertName (name : String) (h : ns.Pairwise (· < ·)) :
    (insertName name ns).Pairwise (· < ·) := by
  induction ns with
  | nil => simp [insertName]
  | cons m ns ih =>
    obtain ⟨hm, hns⟩ := List.pairwise_cons.mp h
    rw [insertName]
    split
    · next hlt =>
      refine List.pairwise_cons.mpr ⟨fun n hn => ?_, h⟩
      rcases List.mem_cons.mp hn with rfl | hn
      · exact hlt
      · exact String.lt_trans hlt (hm n hn)
    · next hnot =>
      split
      · exact h
      · next hne =>
        have hlt : m < name := lt_of_le_of_ne (String.not_lt.mp hnot) (Ne.symm hne)
        refine List.pairwise_cons.mpr ⟨fun n hn => ?_, ih hns⟩
        rcases mem_insertName.mp hn with rfl | hn
        · exact hlt
        · exact hm n hn

/-- What the names come to that are put in their places one after the other. -/
theorem foldl_insertName (names : List String) (h : ns.Pairwise (· < ·)) :
    (names.foldl (fun sorted name => insertName name sorted) ns).Pairwise (· < ·) ∧
      ∀ n, n ∈ names.foldl (fun sorted name => insertName name sorted) ns ↔ n ∈ names ∨ n ∈ ns := by
  induction names generalizing ns with
  | nil => simpa using h
  | cons name names ih =>
    obtain ⟨hsorted, hmem⟩ := ih (pairwise_insertName name h)
    refine ⟨hsorted, fun n => (hmem n).trans ?_⟩
    rw [mem_insertName, List.mem_cons]
    tauto

theorem pairwise_sortedNames (spec : FieldSpec) : spec.sortedNames.Pairwise (· < ·) :=
  (foldl_insertName spec.names .nil).1

theorem mem_sortedNames : n ∈ spec.sortedNames ↔ n ∈ spec.names := by
  simpa [sortedNames] using (foldl_insertName spec.names .nil).2 n

theorem eq_of_pairwise_lt {ns' : List String} (h : ns.Pairwise (· < ·)) (h' : ns'.Pairwise (· < ·))
    (hmem : ∀ n, n ∈ ns ↔ n ∈ ns') : ns = ns' := by
  have hperm : ns.Perm ns' := (List.perm_ext_iff_of_nodup h.nodup h'.nodup).mpr hmem
  exact hperm.eq_of_pairwise (fun m n _ _ hmn hnm => (String.lt_asymm hmn hnm).elim) h h'

/-- Neither the order of the names nor how often they are listed counts. -/
theorem sortedNames_congr {spec' : FieldSpec} (h : ∀ n, n ∈ spec.names ↔ n ∈ spec'.names) :
    spec.sortedNames = spec'.sortedNames := by
  refine eq_of_pairwise_lt spec.pairwise_sortedNames spec'.pairwise_sortedNames fun n => ?_
  rw [mem_sortedNames, mem_sortedNames, h]

end FieldSpec

end Amend
