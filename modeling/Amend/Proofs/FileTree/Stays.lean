import Amend.Proofs.FileTree.Alteration
import Amend.Proofs.Path

/-!
# Steps that stay where they are

A step from a directory to itself only asks that there is a directory. Any other step asks for one
too, so that such steps do not matter but at the end (`ending_tidy`). There they turn a file away
(`ending_append_stay`).
-/

set_option autoImplicit false

namespace Amend

/-- The steps that lead somewhere. -/
def PathStep.strides (steps : List PathStep) : List PathStep :=
  steps.filter (· ≠ .stay)

/-- The steps without those that stay, but for one at the end. -/
def PathStep.tidy (steps : List PathStep) : List PathStep :=
  strides steps ++ if steps.getLast? = some .stay then [.stay] else []

namespace FileTree

open PathStep

variable {t : FileTree} {a : Stage} {loc l : Location} {n : Nat} {isSealed : Bool}
  {step : PathStep} {steps steps' rest rest' : List PathStep}

/-! ## Tidy steps -/

theorem tidy_stay_cons (h : rest ≠ []) : tidy (.stay :: rest) = tidy rest := by
  obtain ⟨step, rest, rfl⟩ := List.exists_cons_of_ne_nil h
  simp [tidy, strides, List.getLast?_cons_cons]

theorem tidy_cons (h : step ≠ .stay) : tidy (step :: rest) = step :: tidy rest := by
  cases rest with
  | nil => simp [tidy, strides, h]
  | cons next rest => simp [tidy, strides, h, List.getLast?_cons_cons]

theorem tidy_ne_nil (h : steps ≠ []) : tidy steps ≠ [] := by
  induction steps with
  | nil => exact absurd rfl h
  | cons step rest ih =>
    by_cases hstep : step = .stay
    · subst hstep
      by_cases hrest : rest = []
      · subst hrest
        simp [tidy]
      · rw [tidy_stay_cons hrest]
        exact ih hrest
    · rw [tidy_cons hstep]
      simp

/-- A step asks for a directory to begin with. -/
theorem ending_stay_cons (t : FileTree) (n : Nat) (loc : Location) (h : rest ≠ []) :
    t.ending ⟨n, loc, .stay :: rest⟩ = t.ending ⟨n, loc, rest⟩ := by
  by_cases hd : ∃ isSealed, t.get? loc = some (.dir isSealed)
  · obtain ⟨isSealed, hd⟩ := hd
    exact (Moves.stay hd).ending_eq
  · obtain ⟨step, rest, rfl⟩ := List.exists_cons_of_ne_nil h
    have hno : ∀ isSealed, t.get? loc ≠ some (.dir isSealed) := not_exists.mp hd
    rw [(Halts.noDirectory hno).ending_eq, (Halts.noDirectory hno).ending_eq]

theorem ending_append_congr (h : ∀ n loc, t.ending ⟨n, loc, rest⟩ = t.ending ⟨n, loc, rest'⟩)
    (hr : rest ≠ []) (hr' : rest' ≠ []) (a : Stage) :
    t.ending (a.append rest) = t.ending (a.append rest') := by
  obtain ⟨b, hab, hb⟩ := exists_halts t a
  rw [(hab.append rest).ending_eq, (hab.append rest').ending_eq]
  generalize t.ending a = r at hb
  cases hb with
  | found | lost => exact h _ _
  | noDirectory hd =>
    exact (Halts.noDirectory hd).ending_eq.trans (Halts.noDirectory hd).ending_eq.symm
  | longName hd hn =>
    exact (Halts.longName hd hn).ending_eq.trans (Halts.longName hd hn).ending_eq.symm
  | @missing n loc name more isSealed hd hn he =>
    refine (Halts.missing hd hn he).ending_eq.trans
      (Eq.trans ?_ (Halts.missing hd hn he).ending_eq.symm)
    rw [if_neg (by simp [hr]), if_neg (by simp [hr'])]
  | tooManyLinks hd hn he =>
    exact (Halts.tooManyLinks hd hn he).ending_eq.trans
      (Halts.tooManyLinks hd hn he).ending_eq.symm

theorem ending_tidy (t : FileTree) (n : Nat) (loc : Location) (steps : List PathStep) :
    t.ending ⟨n, loc, tidy steps⟩ = t.ending ⟨n, loc, steps⟩ := by
  induction steps generalizing n loc with
  | nil => rfl
  | cons step rest ih =>
    by_cases hrest : rest = []
    · subst hrest
      cases step <;> rfl
    by_cases hstep : step = .stay
    · subst hstep
      rw [tidy_stay_cons hrest, ih, ending_stay_cons t n loc hrest]
    · rw [tidy_cons hstep]
      exact ending_append_congr ih (tidy_ne_nil hrest) hrest ⟨n, loc, [step]⟩

/-! ## Asking for a directory -/

/-- No path leads to a link: the last one on the way is followed, too. -/
theorem entryAt_ne_link (hw : t.WellFormed) (cwd : Location) (p : Path) (loc : Location)
    (target : Path) : t.entryAt cwd p ≠ .ok (loc, .link target) := by
  intro h
  obtain ⟨hf, he, m, hr⟩ := entryAt_eq_ok.mp h
  have hne := Path.steps_ne_nil (Path.fault?_eq_none.mp hf).2.1
  rcases hr.stands hw (.inl hne) with hs | ⟨e, he', hl⟩
  · exact hs rfl
  · exact hl target (Option.some.inj (he'.symm.trans he))

/-- The end of a walk that asks for a directory in the end. -/
def asDirectory : Except FileError Destination → Except FileError Destination
  | .ok (.entry loc (.dir isSealed)) => .ok (.entry loc (.dir isSealed))
  | .ok (.entry _ _) => .error .notADirectory
  | .ok (.free _ _) => .error .notFound
  | .error e => .error e

theorem ending_append_stay (hw : t.WellFormed) (ha : Stands t a) :
    t.ending (a.append [.stay]) = asDirectory (t.ending a) := by
  obtain ⟨b, hab, hb⟩ := exists_halts t a
  rw [(hab.append _).ending_eq]
  generalize t.ending a = r at hb
  have hstands := hab.stands hw ha
  cases hb with
  | @found n loc e he =>
    cases e with
    | dir isSealed => exact (Moves.stay he).ending_eq.trans (Halts.found he).ending_eq
    | file d => exact (Halts.noDirectory fun s hs => by rw [he] at hs; cases hs).ending_eq
    | link p => exact (Halts.noDirectory fun s hs => by rw [he] at hs; cases hs).ending_eq
  | lost he =>
    rcases hstands with h | ⟨e, h, -⟩
    · exact absurd rfl h
    · rw [he] at h
      cases h
  | noDirectory hd => exact (Halts.noDirectory hd).ending_eq
  | longName hd hn => exact (Halts.longName hd hn).ending_eq
  | @missing n loc name rest isSealed hd hn he =>
    refine (Halts.missing hd hn he).ending_eq.trans ?_
    rw [if_neg (by simp)]
    split <;> rfl
  | tooManyLinks hd hn he => exact (Halts.tooManyLinks hd hn he).ending_eq

/-- Where a walk ends in a directory, it may ask for one. -/
theorem ending_append_stay_eq_dir :
    t.ending (a.append [.stay]) = .ok (.entry l (.dir isSealed)) ↔
      t.ending a = .ok (.entry l (.dir isSealed)) := by
  rw [ending_eq_entry, ending_eq_entry]
  refine and_congr_right fun hl => ⟨?_, ?_⟩
  · rintro ⟨m, hr⟩
    obtain ⟨⟨k, loc, steps⟩, hab, hnil, hstay⟩ := hr.split rfl
    obtain rfl : steps = [] := hnil
    cases hstay with
    | step hm hrest =>
      cases hm with
      | stay hd =>
        obtain rfl : l = loc :=
          (Stage.mk.inj (hrest.eq_of_stuck (stuck_of_steps_nil t rfl))).2.1
        exact ⟨k, hab⟩
  · rintro ⟨m, hr⟩
    exact ⟨m, (hr.append _).trans (.single (.stay hl))⟩

theorem ending_strides_eq_dir :
    t.ending ⟨n, loc, strides steps⟩ = .ok (.entry l (.dir isSealed)) ↔
      t.ending ⟨n, loc, steps⟩ = .ok (.entry l (.dir isSealed)) := by
  rw [← ending_tidy t n loc steps, tidy]
  split
  · exact (ending_append_stay_eq_dir (a := ⟨n, loc, strides steps⟩)).symm
  · rw [List.append_nil]

end FileTree

end Amend
