import Amend.Proofs.FileTree.Lookup

/-!
# Entries hidden and overwritten

`without` hides entries of a tree and `overwrite` puts files in the place of what stands in it. The
order of the entries is kept, so that the trees are not only alike but equal.
-/

set_option autoImplicit false

namespace Amend.FileTree

variable {t : FileTree} {l loc : Location} {ls ls' : List Location} {e : Entry} {d : FileData}
  {w : Location → Option FileData}

/-! ## Hidden entries -/

/-- The tree without the entries at these locations. -/
def without (t : FileTree) (ls : List Location) : FileTree :=
  ⟨t.entries.filter (·.1 ∉ ls)⟩

theorem without_nil (t : FileTree) : t.without [] = t := by
  unfold without
  rw [List.filter_eq_self.mpr (by simp)]

theorem get?_without (h : l ∉ ls) : (t.without ls).get? l = t.get? l := by
  cases l with
  | nil => rfl
  | cons a as =>
    rw [get?_of_ne_nil (by simp), get?_of_ne_nil (by simp)]
    exact lookup_filter (p := fun l => decide (l ∉ ls)) (by simpa using h)

theorem without_congr (h : ∀ l, t.get? l ≠ none → (l ∈ ls ↔ l ∈ ls')) :
    t.without ls = t.without ls' := by
  unfold without
  congr 1
  refine List.filter_congr fun q hq => ?_
  by_cases hnil : q.1 = []
  · rw [hnil]
    simpa using h [] (by simp)
  · have hne : t.get? q.1 ≠ none := by
      rw [get?_of_ne_nil hnil, Ne, lookup_eq_none]
      exact fun hfree => hfree q hq rfl
    simpa using h q.1 hne

theorem without_erase (t : FileTree) (loc : Location) (ls : List Location) :
    (t.erase loc).without ls = t.without (loc :: ls) := by
  unfold without erase
  rw [List.filter_filter]
  congr 1
  refine List.filter_congr fun q _ => ?_
  simp [Bool.and_comm]

theorem without_set_of_mem (h : loc ∈ ls) (e : Entry) :
    (t.set loc e).without ls = t.without ls := by
  have hset : (t.set loc e).erase loc = t.erase loc := erase_set t loc e
  have hcons : ∀ t : FileTree, t.without ls = (t.erase loc).without ls := fun t => by
    rw [without_erase]
    refine without_congr fun l _ => ?_
    simp only [List.mem_cons]
    exact ⟨.inr, fun hl => hl.elim (fun he => he ▸ h) id⟩
  rw [hcons, hset, ← hcons]

theorem without_set_of_notMem (h : loc ∉ ls) (e : Entry) :
    (t.set loc e).without ls = (t.without ls).set loc e := by
  have hany : (t.entries.filter (·.1 ∉ ls)).any (·.1 = loc) = t.entries.any (·.1 = loc) := by
    rw [List.any_filter]
    congr 1
    funext q
    by_cases hq : q.1 = loc
    · simp [hq, h]
    · simp [hq]
  unfold set without
  rw [hany]
  split
  · simp only [List.filter_map, mk.injEq]
    rw [List.filter_congr (q := fun q => decide (q.1 ∉ ls))]
    intro q _
    dsimp only [Function.comp_apply]
    split
    · next hq => simp [hq]
    · rfl
  · rw [List.filter_cons_of_pos (by simpa using h)]

/-! ## Overwritten entries -/

/-- The tree with these files in the place of what stands at their locations. -/
def overwrite (t : FileTree) (w : Location → Option FileData) : FileTree :=
  ⟨t.entries.map fun q => (q.1, ((w q.1).map Entry.file).getD q.2)⟩

theorem overwrite_none (t : FileTree) : t.overwrite (fun _ => none) = t := by
  unfold overwrite
  simp

theorem lookup_overwrite {entries : List (Location × Entry)} :
    (entries.map fun q => (q.1, ((w q.1).map Entry.file).getD q.2)).lookup l =
      (entries.lookup l).map fun e => ((w l).map Entry.file).getD e := by
  induction entries with
  | nil => rfl
  | cons q qs ih =>
    obtain ⟨k, v⟩ := q
    rw [List.map_cons, List.lookup_cons, List.lookup_cons]
    by_cases h : l = k
    · simp [h]
    · rw [show (l == k) = false by simpa using h]
      exact ih

theorem get?_overwrite_of_none (h : w l = none) : (t.overwrite w).get? l = t.get? l := by
  cases l with
  | nil => rfl
  | cons a as =>
    rw [get?_of_ne_nil (by simp), get?_of_ne_nil (by simp)]
    exact lookup_overwrite.trans (by simp [h])

theorem get?_overwrite_of_some (hne : l ≠ []) (h : w l = some d) (he : t.get? l ≠ none) :
    (t.overwrite w).get? l = some (.file d) := by
  rw [get?_of_ne_nil hne] at he ⊢
  obtain ⟨e, he⟩ := Option.ne_none_iff_exists'.mp he
  exact lookup_overwrite.trans (by simp [h, he])

/-- A file that is put in the place of an entry is one more that is overwritten. -/
theorem set_overwrite (hne : loc ≠ []) (he : t.get? loc ≠ none) (d : FileData) :
    (t.overwrite w).set loc (.file d) =
      t.overwrite fun l => if l = loc then some d else w l := by
  have hmem : (t.overwrite w).entries.any (·.1 = loc) = true := by
    rw [get?_of_ne_nil hne, Ne, lookup_eq_none] at he
    simpa [overwrite] using he
  unfold set
  rw [if_pos hmem]
  unfold overwrite
  simp only [List.map_map, mk.injEq]
  refine List.map_congr_left fun q _ => ?_
  by_cases hq : q.1 = loc
  · simp [hq]
  · simp [hq]

end Amend.FileTree
