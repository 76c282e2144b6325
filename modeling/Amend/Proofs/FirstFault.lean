import Mathlib.Data.List.Forall2
import Mathlib.Data.List.Induction
import Mathlib.Data.List.Nodup

/-!
# First faults in lists

A function that can fail has a result for each member of a list, or it fails for a first one
(`forall_ok_or_exists_error`); taken along the list it has a result exactly in the first case
(`mapM_eq_ok_iff`). A list repeats nothing, or there is a first thing that it repeats
(`nodup_or_repeated`).
-/

set_option autoImplicit false

namespace Amend

variable {α β ε : Type} {f : α → Except ε β} {xs : List α} {ys : List β} {e : ε}

theorem mapM_eq_ok (h : List.Forall₂ (fun x y => f x = .ok y) xs ys) : xs.mapM f = .ok ys := by
  induction h with
  | nil => rfl
  | cons hx _ ih =>
    rw [List.mapM_cons, hx, ih]
    rfl

theorem mapM_eq_error {before after : List α} {x : α} (hbefore : ∀ x ∈ before, ∃ y, f x = .ok y)
    (hx : f x = .error e) : (before ++ x :: after).mapM f = .error e := by
  induction before with
  | nil =>
    rw [List.nil_append, List.mapM_cons, hx]
    rfl
  | cons x' before ih =>
    obtain ⟨y, hy⟩ := hbefore x' List.mem_cons_self
    rw [List.cons_append, List.mapM_cons, hy, ih fun x hx => hbefore x (List.mem_cons_of_mem _ hx)]
    rfl

theorem exists_forall₂_of_ok (h : ∀ x ∈ xs, ∃ y, f x = .ok y) :
    ∃ ys, List.Forall₂ (fun x y => f x = .ok y) xs ys := by
  induction xs with
  | nil => exact ⟨[], .nil⟩
  | cons x xs ih =>
    obtain ⟨y, hy⟩ := h x List.mem_cons_self
    obtain ⟨ys, hys⟩ := ih fun x hx => h x (List.mem_cons_of_mem _ hx)
    exact ⟨y :: ys, .cons hy hys⟩

/-- What does not work on all of a list fails somewhere first. -/
theorem forall_ok_or_exists_error (f : α → Except ε β) (xs : List α) :
    (∀ x ∈ xs, ∃ y, f x = .ok y) ∨ ∃ before x after e, xs = before ++ x :: after ∧
      (∀ x ∈ before, ∃ y, f x = .ok y) ∧ f x = .error e := by
  induction xs with
  | nil => exact .inl nofun
  | cons x xs ih =>
    cases hx : f x with
    | error e => exact .inr ⟨[], x, xs, e, rfl, nofun, hx⟩
    | ok y =>
      rcases ih with hall | ⟨before, x', after, e, rfl, hbefore, hx'⟩
      · exact .inl (List.forall_mem_cons.mpr ⟨⟨y, hx⟩, hall⟩)
      · exact .inr ⟨x :: before, x', after, e, rfl,
          List.forall_mem_cons.mpr ⟨⟨y, hx⟩, hbefore⟩, hx'⟩

theorem forall_ok_of_mapM_eq_ok (h : xs.mapM f = .ok ys) : ∀ x ∈ xs, ∃ y, f x = .ok y := by
  rcases forall_ok_or_exists_error f xs with hall | ⟨before, x, after, e, rfl, hbefore, hx⟩
  · exact hall
  · rw [mapM_eq_error hbefore hx] at h
    cases h

/-- A function that can fail has a result along a list exactly where it has one for each member. -/
theorem mapM_eq_ok_iff : xs.mapM f = .ok ys ↔ List.Forall₂ (fun x y => f x = .ok y) xs ys := by
  refine ⟨fun h => ?_, mapM_eq_ok⟩
  obtain ⟨zs, hzs⟩ := exists_forall₂_of_ok (forall_ok_of_mapM_eq_ok h)
  rw [mapM_eq_ok hzs] at h
  cases h
  exact hzs

theorem exists_of_mapM_eq_ok (h : xs.mapM f = .ok ys) : ∀ y ∈ ys, ∃ x ∈ xs, f x = .ok y := by
  rw [mapM_eq_ok_iff] at h
  induction h with
  | nil => nofun
  | @cons x y xs ys hxy _ ih =>
    intro z hz
    rcases List.mem_cons.mp hz with rfl | hz
    · exact ⟨x, List.mem_cons_self, hxy⟩
    · obtain ⟨x', hx', hxz⟩ := ih z hz
      exact ⟨x', List.mem_cons_of_mem _ hx', hxz⟩

/-- More of a list repeats nothing, or there is a first thing that it repeats. -/
theorem nodup_or_repeated (h : xs.Nodup) (ys : List α) :
    (xs ++ ys).Nodup ∨ ∃ before y after, ys = before ++ y :: after ∧ (xs ++ before).Nodup ∧
      y ∈ xs ++ before := by
  induction ys using List.reverseRecOn with
  | nil => exact .inl (by simpa using h)
  | append_singleton ys y ih =>
    rcases ih with hys | ⟨before, z, after, rfl, hbefore, hz⟩
    · by_cases hy : y ∈ xs ++ ys
      · exact .inr ⟨ys, y, [], rfl, hys, hy⟩
      · rw [← List.append_assoc]
        exact .inl (List.nodup_append_comm.mp (List.nodup_cons.mpr ⟨hy, hys⟩))
    · exact .inr ⟨before, z, after ++ [y], by simp, hbefore, hz⟩

end Amend
