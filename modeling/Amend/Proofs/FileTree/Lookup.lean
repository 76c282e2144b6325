import Amend.FileTree.Basic

/-!
# What stands where after a change

`get?` after each operation on file trees. A change at one location leaves all others as they were,
and taking an entry away again undoes its creation, down to the order of the entries.
-/

set_option autoImplicit false

namespace Amend.FileTree

variable {t : FileTree} {loc l : Location} {e : Entry}

theorem get?_of_ne_nil (h : loc ≠ []) : t.get? loc = t.entries.lookup loc := by
  cases loc with
  | nil => exact absurd rfl h
  | cons _ _ => rfl

@[simp]
theorem get?_nil : t.get? [] = some (.dir false) := rfl

theorem ne_nil_of_get? (h : t.get? loc = none) : loc ≠ [] := by
  rintro rfl
  simp at h

theorem lookup_eq_none {entries : List (Location × Entry)} :
    entries.lookup loc = none ↔ ∀ p ∈ entries, p.1 ≠ loc := by
  induction entries with
  | nil => simp
  | cons p ps ih =>
    obtain ⟨k, v⟩ := p
    rw [List.lookup_cons]
    by_cases h : loc = k
    · simp [h]
    · rw [show (loc == k) = false by simpa using h]
      simp [ih, Ne.symm h]

theorem mem_of_get? (hne : l ≠ []) (h : t.get? l = some e) : (l, e) ∈ t.entries := by
  rw [get?_of_ne_nil hne] at h
  obtain ⟨before, after, hentries, -⟩ := List.lookup_eq_some_iff.mp h
  rw [hentries]
  simp

/-! ## Setting an entry -/

theorem lookup_map_of_mem {entries : List (Location × Entry)}
    (h : entries.any (·.1 = loc) = true) :
    (entries.map fun p => if p.1 = loc then (loc, e) else p).lookup loc = some e := by
  induction entries with
  | nil => simp at h
  | cons p ps ih =>
    obtain ⟨k, v⟩ := p
    by_cases hk : k = loc
    · simp [hk]
    · rw [List.map_cons, if_neg hk, List.lookup_cons,
        show (loc == k) = false by simpa using Ne.symm hk]
      exact ih (by simpa [hk] using h)

theorem lookup_map_of_ne {entries : List (Location × Entry)} (h : l ≠ loc) :
    (entries.map fun p => if p.1 = loc then (loc, e) else p).lookup l = entries.lookup l := by
  induction entries with
  | nil => rfl
  | cons p ps ih =>
    obtain ⟨k, v⟩ := p
    rw [List.map_cons, List.lookup_cons]
    by_cases hk : k = loc
    · subst hk
      rw [if_pos rfl, List.lookup_cons, show (l == k) = false by simpa using h]
      exact ih
    · rw [if_neg hk, List.lookup_cons, ih]

theorem get?_set_self (h : loc ≠ []) : (t.set loc e).get? loc = some e := by
  rw [get?_of_ne_nil h]
  unfold set
  split
  · next hmem => exact lookup_map_of_mem hmem
  · simp

theorem get?_set_ne (h : l ≠ loc) : (t.set loc e).get? l = t.get? l := by
  cases l with
  | nil => rfl
  | cons a as =>
    rw [get?_of_ne_nil (by simp), get?_of_ne_nil (by simp)]
    unfold set
    split
    · exact lookup_map_of_ne h
    · rw [List.lookup_cons, show ((a :: as) == loc) = false by simpa using h]

theorem any_map_fst {entries : List (Location × Entry)} :
    (entries.map fun p => if p.1 = loc then (loc, e) else p).any (·.1 = l) =
      entries.any (·.1 = l) := by
  rw [List.any_map]
  congr 1
  funext p
  dsimp only [Function.comp_apply]
  split
  · next h => rw [h]
  · rfl

theorem set_set (t : FileTree) (loc : Location) (e e' : Entry) :
    (t.set loc e).set loc e' = t.set loc e' := by
  by_cases h : t.entries.any (·.1 = loc) = true
  · unfold set
    rw [if_pos h, any_map_fst, if_pos h, if_pos h, List.map_map]
    congr 2
    funext p
    dsimp only [Function.comp_apply]
    split <;> simp_all
  · unfold set
    rw [if_neg h, if_neg h, if_pos (by simp)]
    simp only [List.any_eq_true, decide_eq_true_eq, not_exists, not_and] at h
    rw [List.map_cons, if_pos rfl, List.map_congr_left (g := id), List.map_id]
    intro p hp
    exact if_neg (h p hp)

theorem get?_set_of_free {e' : Entry} (h : t.get? loc = none) (he : t.get? l = some e') :
    (t.set loc e).get? l = some e' := by
  rw [get?_set_ne, he]
  rintro rfl
  rw [h] at he
  cases he

/-! ## Erasing entries -/

theorem get?_erase_self (h : loc ≠ []) : (t.erase loc).get? loc = none := by
  rw [get?_of_ne_nil h, lookup_eq_none]
  simp [erase]

theorem lookup_filter {p : Location → Bool} {entries : List (Location × Entry)} (h : p l = true) :
    (entries.filter fun q => p q.1).lookup l = entries.lookup l := by
  induction entries with
  | nil => rfl
  | cons q qs ih =>
    obtain ⟨k, v⟩ := q
    by_cases hk : p k = true
    · rw [List.filter_cons_of_pos (by exact hk), List.lookup_cons, List.lookup_cons, ih]
    · have hne : (l == k) = false := by
        simp only [beq_eq_false_iff_ne]
        rintro rfl
        exact hk h
      rw [List.filter_cons_of_neg (by exact hk), ih, List.lookup_cons, hne]

theorem get?_erase_ne (h : l ≠ loc) : (t.erase loc).get? l = t.get? l := by
  cases l with
  | nil => rfl
  | cons a as =>
    rw [get?_of_ne_nil (by simp), get?_of_ne_nil (by simp)]
    exact lookup_filter (p := fun k => decide (k ≠ loc)) (by simpa using h)

theorem erase_of_get?_none (h : t.get? loc = none) : t.erase loc = t := by
  have hfree := lookup_eq_none.mp ((get?_of_ne_nil (ne_nil_of_get? h)).symm.trans h)
  unfold erase
  rw [List.filter_eq_self.mpr]
  simpa using hfree

/-- Erasing a new entry undoes its creation. -/
theorem erase_set_of_get?_none (h : t.get? loc = none) (e : Entry) :
    (t.set loc e).erase loc = t := by
  rw [erase_set, erase_of_get?_none h]

end Amend.FileTree
