import Amend.Proofs.FileTree.Staging
import Amend.Proofs.FileTree.Stays

/-!
# Where a new text is written

A path that leads to a file of a well-formed tree has a slot, in the directory where its temporary
file is created (`exists_site`). Rewriting other files changes neither, so what `create`,
`copyMode` and `replace` do for the path is the same in the altered tree.
-/

set_option autoImplicit false

namespace Amend.StagedWrite

open FileTree

variable {t t' : FileTree} {a b : Stage} {cwd dir F loc l : Location} {name : String} {p : Path}
  {old : FileData} {n m k : Nat} {isSealed : Bool}

theorem strides_append_stays (steps : List PathStep) (k : Nat) :
    PathStep.strides (steps ++ List.replicate k .stay) = PathStep.strides steps := by
  simp [PathStep.strides]

/-- A path leads to its directory where all but its last step lead. -/
theorem Slot.entryAt_directory (h : Slot t cwd p dir name)
    (hd : t.get? dir = some (.dir isSealed)) :
    t.entryAt cwd (directory p) = .ok (dir, .dir isSealed) := by
  obtain ⟨init, last, hsplit, hlast, hinit⟩ := Path.exists_piece_of_into h.slash h.last
  have hq := Path.leadsTo_directory hsplit hlast h.fault
  obtain ⟨core, i, j, hi, hj⟩ := hq.steps
  have hend : t.ending ⟨linkLimit, p.origin cwd, p.innerSteps.dropLast⟩ =
      .ok (.entry dir (.dir isSealed)) := ending_eq_entry.mpr ⟨hd, h.reaches⟩
  rw [hinit, hi, ← ending_strides_eq_dir, strides_append_stays, ← strides_append_stays core j, ← hj,
    ending_strides_eq_dir] at hend
  refine entryAt_eq_ok.mpr ⟨hq.fault, hd, ?_⟩
  rw [Path.stage, Path.origin, hq.isAbsolute]
  exact (ending_eq_entry.mp hend).2

/-! ## Sites -/

/-- Where the new text for a path is written: in its slot, in the place of the file at `F` or of a
link that leads there. -/
structure Site (t : FileTree) (cwd : Location) (p : Path) (dir : Location) (name : String)
    (F : Location) (old : FileData) : Prop where
  led : t.entryAt cwd p = .ok (F, .file old)
  slot : Slot t cwd p dir name
  stood : EndsIn t (dir ++ [name]) F

/-- The last step to a file takes its name or that of a link. -/
theorem into_of_reaches_file {step : PathStep} (hw : t.WellFormed)
    (hF : t.get? F = some (.file old)) (h : Reaches t (a.append [step]) ⟨m, F, []⟩) :
    ∃ name, step = .into name := by
  obtain ⟨⟨k, l, steps⟩, -, hnil, hr⟩ := h.split rfl
  obtain rfl : steps = [] := hnil
  cases hr with
  | step hm hrest =>
    cases hm with
    | stay hd =>
      have : F = l := (Stage.mk.inj (hrest.eq_of_stuck (stuck_of_steps_nil t rfl))).2.1
      rw [this, hd] at hF
      cases hF
    | up hd =>
      have : F = l.dropLast := (Stage.mk.inj (hrest.eq_of_stuck (stuck_of_steps_nil t rfl))).2.1
      obtain ⟨s, hs⟩ := hw.dropLast hd
      rw [this, hs] at hF
      cases hF
    | into => exact ⟨_, rfl⟩
    | link => exact ⟨_, rfl⟩

/-- Every path that leads to a file has a site. -/
theorem exists_site (hw : t.WellFormed) (h : t.entryAt cwd p = .ok (F, .file old)) :
    ∃ dir name, Site t cwd p dir name F old := by
  obtain ⟨hf, hF, m, hr⟩ := entryAt_eq_ok.mp h
  have hslash : p.endsInSlash = false := by
    rw [← Bool.not_eq_true]
    intro hs
    rw [Path.stage, Path.steps, if_pos hs] at hr
    obtain ⟨name, hname⟩ :=
      into_of_reaches_file (a := ⟨linkLimit, p.origin cwd, p.innerSteps⟩) hw hF hr
    cases hname
  have hsteps : p.steps = p.innerSteps := by
    rw [Path.steps, hslash]
    rfl
  obtain ⟨init, last, hlast⟩ : ∃ init last, p.innerSteps = init ++ [last] := by
    have hne : p.innerSteps ≠ [] := by
      rw [← hsteps]
      exact Path.steps_ne_nil (Path.fault?_eq_none.mp hf).2.1
    exact ⟨_, _, (List.dropLast_concat_getLast hne).symm⟩
  have hr' := hr
  rw [Path.stage, hsteps, hlast] at hr'
  obtain ⟨name, rfl⟩ := into_of_reaches_file (a := ⟨linkLimit, p.origin cwd, init⟩) hw hF hr'
  have hlast' : p.innerSteps.getLast? = some (.into name) := by simp [hlast]
  obtain ⟨dir, hslot, hE⟩ := exists_slot hf hslash hlast' hF hr
  exact ⟨dir, name, h, hslot, hE⟩

/-! ## Operations in an altered tree -/

/-- A path leads to the file at `F`, if it may follow any number of links. Where a path is cut
short for the number of its links, this is so for all files on its way. -/
def Resolves (t : FileTree) (cwd : Location) (p : Path) (F : Location) : Prop :=
  p.fault? = none ∧ (∃ d, t.get? F = some (.file d)) ∧ ComesTo t (p.stage linkLimit cwd) F

theorem Site.resolves (h : Site t cwd p dir name F old) : Resolves t cwd p F := by
  obtain ⟨hf, hF, m, hr⟩ := entryAt_eq_ok.mp h.led
  exact ⟨hf, ⟨old, hF⟩, linkLimit, m, [], hr, .inl rfl⟩

/-- A path that is not cut short leads to one file at most. -/
theorem Resolves.eq_of_entryAt {e : Entry} (h : Resolves t cwd p F)
    (he : t.entryAt cwd p = .ok (loc, e)) : F = loc := by
  obtain ⟨hf, ⟨d, hF⟩, n, m, rest, hr, hrest⟩ := h
  obtain ⟨-, hloc, m', hr'⟩ := entryAt_eq_ok.mp he
  exact (Reaches.stuck_unique (a := p.stage linkLimit cwd) hr hr' (stuck_of_file hF)
    (stuck_of_steps_nil t rfl)).1

variable {P : Location → Prop}

/-- A path leads where it did if it leads to no file that was rewritten. -/
theorem entryAt_altered (ha : Altered t P t') (hw : t.WellFormed)
    (ht : KeepsGaps t t' (p.stage linkLimit cwd))
    (hP : ∀ F, P F → (∃ d, t.get? F = some (.file d)) ∧ ¬ Resolves t cwd p F) :
    t'.entryAt cwd p = t.entryAt cwd p := by
  have hfollow : t'.follow cwd p = t.follow cwd p := by
    cases hf : p.fault? with
    | some e =>
      unfold follow
      rw [hf]
    | none =>
      rw [follow_eq hf, follow_eq hf]
      have hsteps := Path.steps_ne_nil (Path.fault?_eq_none.mp hf).2.1
      refine ha.ending_eq hw (.inl hsteps) ht fun F hF hcome => ?_
      exact (hP F hF).2 ⟨hf, (hP F hF).1, hcome⟩
  unfold entryAt
  rw [hfollow]

/-- Why no temporary file is created for a path: its path cannot be followed, or the directory is a
sealed one. -/
def refusal? (cwd : Location) (p : Path) (isSealed : Bool) : Option FileError :=
  (tempFault? cwd p <|> if isSealed then some FileError.notFound else none).map (refusal cwd p)

theorem refusal?_eq_none (h : tempFault? cwd p = none) : refusal? cwd p false = none := by
  rw [refusal?, h]
  rfl

/-- What comes of creating a temporary file for a path with a slot, in whichever tree. -/
theorem Slot.create_eq (h : Slot t cwd p dir name) (ha : Altered t P t')
    (hd : t.get? dir = some (.dir isSealed)) :
    create t' cwd p =
      match refusal? cwd p isSealed with
      | some e => .error e
      | none => .ok (⟨p, dir ++ [freshName t' dir]⟩,
        t'.set (dir ++ [freshName t' dir]) (.file emptyTemp)) := by
  have hdir := (h.altered ha).entryAt_directory (ha.dir_iff.mpr hd)
  unfold refusal?
  cases hfault : tempFault? cwd p with
  | some e =>
    unfold create
    rw [hfault]
    rfl
  | none =>
    cases isSealed with
    | false => exact create_eq_ok.mpr ⟨hfault, dir, hdir, rfl, rfl⟩
    | true =>
      unfold create
      rw [hfault, hdir]
      rfl

/-- A renaming finds the slot of the target free of directories. -/
theorem Site.replace_eq {w : StagedWrite} {d : FileData} (h : Site t cwd w.target dir name F old)
    (ha : Altered t P t') (hd : t'.get? w.temp = some (.file d)) :
    w.replace t' cwd = .ok ((t'.erase w.temp).set (dir ++ [name]) (.file d)) := by
  refine replace_eq_ok.mpr ⟨dir, name, .file d, h.slot.altered ha, fun s hs => ?_, hd, rfl⟩
  exact h.stood.not_dir (ha.dir_iff.mp hs)

end Amend.StagedWrite
