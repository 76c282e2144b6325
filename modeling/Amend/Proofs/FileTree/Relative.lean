import Amend.Proofs.FileTree.Stays
import Amend.Proofs.Spelling
import Mathlib.Data.List.Basic

/-!
# Paths read from a directory

A path that is read from another one takes the steps of that one and then its own (`steps_append`).
So it leads to a file exactly if it does so from the directory that the other one leads to, unless
both together are too long or follow too many links (`isFile_append_iff`).
-/

set_option autoImplicit false

namespace Amend

namespace Path

variable {base p : Path}

/-! ## The steps of a path that is read from another one -/

theorem append_of_isAbsolute (h : p.isAbsolute = true) : base ++ p = p := by
  change base.append p = p
  rw [append, h, Bool.true_or, if_pos rfl]

/-- The text of a path comes last where it is read from another one. -/
theorem exists_text_append (base p : Path) :
    ∃ before, (base ++ p).text.toList = before ++ p.text.toList := by
  change ∃ before, (base.append p).text.toList = _
  unfold append
  split
  · exact ⟨[], rfl⟩
  split
  · exact ⟨base.text.toList, by simp⟩
  · exact ⟨base.text.toList ++ ['/'], by simp⟩

theorem endsInSlash_append (hne : p.text.toList ≠ []) :
    (base ++ p).endsInSlash = p.endsInSlash := by
  obtain ⟨before, h⟩ := exists_text_append base p
  rw [endsInSlash, endsInSlash, h, List.getLast?_append_of_ne_nil _ hne]

theorem innerSteps_append (h : p.isAbsolute = false) :
    (base ++ p).innerSteps = base.innerSteps ++ p.innerSteps := by
  change (base.append p).innerSteps = _
  simp only [innerSteps_eq]
  unfold append
  rw [h, Bool.false_or]
  split
  · next hempty =>
    have hbase : base.text.toList = [] := by simpa using hempty
    rw [hbase]
    rfl
  split
  · next hslash =>
    obtain ⟨cs, hcs⟩ := List.getLast?_eq_some_iff.mp (by simpa [endsInSlash] using hslash)
    simp [hcs, split_append, split, stepsOf, PathStep.ofPiece]
  · simp [split_append, stepsOf_append]

theorem steps_append (h : p.isAbsolute = false) (hne : p.text.toList ≠ []) :
    (base ++ p).steps = base.innerSteps ++ p.steps := by
  rw [steps, steps, endsInSlash_append hne, innerSteps_append h]
  split
  · rw [List.append_assoc]
  · rfl

theorem asksDirectory_append (hne : p.text.toList ≠ []) :
    (base ++ p).asksDirectory = p.asksDirectory := by
  cases h : p.isAbsolute with
  | true => rw [append_of_isAbsolute h]
  | false =>
    rw [asksDirectory, asksDirectory, steps_append h hne,
      List.getLast?_append_of_ne_nil _ (steps_ne_nil hne)]

theorem fault?_of_append (hne : p.text.toList ≠ []) (h : (base ++ p).fault? = none) :
    p.fault? = none := by
  obtain ⟨before, htext⟩ := exists_text_append base p
  obtain ⟨hnul, -, hlength⟩ := fault?_eq_none.mp h
  refine fault?_eq_none.mpr ⟨fun hmem => hnul ?_, hne, Nat.le_trans ?_ hlength⟩
  · rw [htext]
    exact List.mem_append_right _ hmem
  · rw [← String.ofList_toList (s := (base ++ p).text), htext, String.ofList_append,
      String.utf8ByteSize_append, String.ofList_toList]
    exact Nat.le_add_left ..

end Path

namespace FileTree

variable {t : FileTree} {a b : Stage} {cwd dir : Location} {root p : Path}

/-! ## Files and directories -/

theorem isFile_iff {l : Location} : t.isFile l p = true ↔
    ∃ F d, t.entryAt l p = .ok (F, .file d) := by
  unfold isFile
  split
  · next F d he => exact iff_of_true rfl ⟨F, d, he⟩
  · next hno => exact iff_of_false Bool.false_ne_true fun ⟨F, d, he⟩ => hno F d he

theorem directoryAt_eq_ok :
    t.directoryAt cwd p = .ok dir ↔ ∃ isSealed, t.entryAt cwd p = .ok (dir, .dir isSealed) := by
  unfold directoryAt
  cases t.entryAt cwd p with
  | error f => exact iff_of_false nofun nofun
  | ok found =>
    obtain ⟨loc, e⟩ := found
    cases e <;> simp

theorem isFile_of_isAbsolute (h : p.isAbsolute = true) (l l' : Location) :
    t.isFile l p = t.isFile l' p := by
  simp only [isFile, entryAt, follow, h, if_true]

theorem isFile_of_asksDirectory (h : p.asksDirectory = true) : t.isFile cwd p = false := by
  rw [← Bool.not_eq_true, isFile_iff]
  rintro ⟨F, d, he⟩
  obtain ⟨-, hF, m, hr⟩ := entryAt_eq_ok.mp he
  obtain ⟨init, hsteps⟩ := List.getLast?_eq_some_iff.mp
    (by simpa [Path.asksDirectory] using h)
  have hstage : p.stage linkLimit cwd =
      (⟨linkLimit, p.origin cwd, init⟩ : Stage).append [.stay] := by
    rw [Path.stage, hsteps]
    rfl
  rw [hstage] at hr
  obtain ⟨⟨k, loc, steps⟩, -, hnil, hstay⟩ := hr.split rfl
  obtain rfl : steps = [] := hnil
  cases hstay with
  | step hm hrest =>
    cases hm with
    | stay hd =>
      obtain rfl : F = loc :=
        (Stage.mk.inj (hrest.eq_of_stuck (stuck_of_steps_nil t rfl))).2.1
      rw [hF] at hd
      cases hd

/-! ## Walks from a directory -/

theorem Reaches.links_le (h : Reaches t a b) : b.links ≤ a.links := by
  induction h with
  | refl => exact Nat.le_refl _
  | step hm _ ih =>
    refine Nat.le_trans ih ?_
    cases hm with
    | stay | up | into => exact Nat.le_refl _
    | link => exact Nat.le_succ _

/-- The steps of a path that are no slash at its end lead to the directory that it leads to. -/
theorem reaches_of_directoryAt (h : t.directoryAt cwd root = .ok dir) :
    ∃ m, Reaches t ⟨linkLimit, root.origin cwd, root.innerSteps⟩ ⟨m, dir, []⟩ := by
  obtain ⟨isSealed, he⟩ := directoryAt_eq_ok.mp h
  obtain ⟨-, hd, m, hr⟩ := entryAt_eq_ok.mp he
  have hend : t.ending ⟨linkLimit, root.origin cwd, root.steps⟩ =
      .ok (.entry dir (.dir isSealed)) :=
    ending_eq_entry.mpr ⟨hd, m, hr⟩
  rw [Path.steps] at hend
  split at hend
  · exact (ending_eq_entry.mp ((ending_append_stay_eq_dir
      (a := ⟨linkLimit, root.origin cwd, root.innerSteps⟩)).mp hend)).2
  · exact (ending_eq_entry.mp hend).2

/-- A path that is read from another one is followed from the directory that this one leads to,
with the links that are left. -/
theorem reaches_append (hroot : t.directoryAt cwd root = .ok dir) (hp : p.isAbsolute = false)
    (hne : p.text.toList ≠ []) :
    ∃ m ≤ linkLimit, Reaches t ((root ++ p).stage linkLimit cwd) ⟨m, dir, p.steps⟩ := by
  obtain ⟨m, hr⟩ := reaches_of_directoryAt hroot
  refine ⟨m, hr.links_le, ?_⟩
  have hstage : (root ++ p).stage linkLimit cwd =
      (⟨linkLimit, root.origin cwd, root.innerSteps⟩ : Stage).append p.steps := by
    rw [Path.stage, Path.steps_append hp hne, Path.origin, Path.isAbsolute_append, hp,
      Bool.or_false]
    rfl
  rw [hstage]
  exact hr.append p.steps

/-- What leads to a file where it is read from another path does so from the directory that this
one leads to. -/
theorem isFile_of_isFile_append (hroot : t.directoryAt cwd root = .ok dir)
    (hne : p.text.toList ≠ []) (h : t.isFile cwd (root ++ p) = true) : t.isFile dir p = true := by
  cases hp : p.isAbsolute with
  | true =>
    rw [Path.append_of_isAbsolute hp] at h
    rwa [isFile_of_isAbsolute hp dir cwd]
  | false =>
    obtain ⟨F, d, he⟩ := isFile_iff.mp h
    obtain ⟨hf, hF, k, hr⟩ := entryAt_eq_ok.mp he
    obtain ⟨m, hm, hdir⟩ := reaches_append hroot hp hne
    have hrest : Reaches t ⟨m, dir, p.steps⟩ ⟨k, F, []⟩ := by
      rcases hdir.linear hr with hrest | hback
      · exact hrest
      · have := Stage.mk.inj (hback.eq_of_stuck (stuck_of_steps_nil t rfl))
        exact absurd this.2.2 (Path.steps_ne_nil hne)
    have hmore := hrest.moreLinks (linkLimit - m)
    rw [Nat.add_sub_cancel' hm] at hmore
    refine isFile_iff.mpr ⟨F, d, entryAt_eq_ok.mpr
      ⟨Path.fault?_of_append hne hf, hF, k + (linkLimit - m), ?_⟩⟩
    rw [Path.stage, Path.origin, if_neg (by simp [hp])]
    exact hmore

/-- Where a path leads to a file from the directory that another one leads to, it does so where it
is read from that one, unless both together are beyond a limit. -/
theorem isFile_append_of_isFile (hroot : t.directoryAt cwd root = .ok dir)
    (h : t.isFile dir p = true) (hf : (root ++ p).fault? = none)
    (hlinks : t.entryAt cwd (root ++ p) ≠ .error .tooManyLinks) :
    t.isFile cwd (root ++ p) = true := by
  obtain ⟨F, d, he⟩ := isFile_iff.mp h
  obtain ⟨hfault, hF, k, hr⟩ := entryAt_eq_ok.mp he
  have hne := (Path.fault?_eq_none.mp hfault).2.1
  cases hp : p.isAbsolute with
  | true =>
    rw [Path.append_of_isAbsolute hp]
    rwa [isFile_of_isAbsolute hp cwd dir]
  | false =>
    obtain ⟨m, -, hdir⟩ := reaches_append hroot hp hne
    rw [Path.stage, Path.origin, if_neg (by simp [hp])] at hr
    obtain ⟨b, hb, hhalts⟩ := exists_halts t ⟨m, dir, p.steps⟩
    have hstuck : Stuck t b := by
      intro n
      refine ⟨_, (hhalts.withLinks n).resolve_right fun hmany => hlinks ?_⟩
      rw [hmany] at hhalts
      exact entryAt_of_halts hf (hdir.trans hb) hhalts
    obtain ⟨hloc, hsteps⟩ := Reaches.stuck_unique (a := ⟨m, dir, p.steps⟩) hb hr hstuck
      (stuck_of_file hF)
    obtain ⟨n, loc, steps⟩ := b
    obtain rfl : loc = F := hloc
    obtain rfl : steps = [] := hsteps
    exact isFile_iff.mpr ⟨loc, d, entryAt_eq_ok.mpr ⟨hf, hF, n, hdir.trans hb⟩⟩

end FileTree

end Amend
