import Amend.Proofs.FileTree.Interruption
import Amend.Proofs.Run.Interleaving

/-!
# Targets that have nothing to do with each other

When no two targets lead to one file (`Separate`), a run in order does with each target what is
foreseen for it in the tree before the run: what was written for the targets before is the only
change (`Start.Wrote`), and no walk to a later one comes across it (`Wrote.entryAt_eq`).
`Start.rewriteFile_wrote` is the step for one target, and `Start.rewriteEach_wrote` the run. Unlike
with workers that take turns, targets may ask for temporary files: there are none when they do.
-/

set_option autoImplicit false

namespace Amend

open FileTree StagedWrite

/-- No two targets lead to one file. A path that is cut short for the number of its links counts as
leading to all files on its way. -/
structure Separate (t : FileTree) (cwd : Location) (base : Path) (targets : List Path) :
    Prop where
  wellFormed : t.WellFormed
  apart : targets.Pairwise fun p q =>
    ∀ F, Resolves t cwd (base ++ p) F → ¬ Resolves t cwd (base ++ q) F

/-- The tree `t` is the one before the run with what is foreseen for `done` written. -/
def Start.Wrote (s : Start) (done : List Path) (t : FileTree) : Prop :=
  ∃ w, t = s.tree.overwrite w ∧ ∀ l d, w l = some d ↔ ∃ p ∈ done, s.Writes p l d

/-! ## Single targets -/

section
variable {t : FileTree} {cwd dir F : Location} {base p : Path} {mode : WriteMode} {set : RuleSet}
  {name : String} {old : FileData} {text : String} {f : FileError}

/-- A target that leads to a file is rewritten if its rules change the text there. -/
theorem StagedWrite.Site.rewriteFile_eq (h : Site t cwd (base ++ p) dir name F old)
    (hd : t.get? dir = some (.dir false)) (hfault : tempFault? cwd (base ++ p) = none)
    (htext : old.text? = some text)
    (hne : (Rule.applyAll set.rules text.toList).text ≠ text.toList) :
    rewriteFile noFaults t cwd base .inPlace p set =
      (t.set (dir ++ [name]) (.file ⟨(String.ofList
          (Rule.applyAll set.rules text.toList).text).toUTF8, old.mode, none⟩),
        .succeeded p .rewritten (Rule.applyAll set.rules text.toList)) := by
  have hread : t.readText cwd (base ++ p) = .ok text :=
    readText_eq_ok.mpr ⟨old, fileAt_eq_ok.mpr ⟨F, h.led⟩, htext⟩
  have hplan : planFile noFaults t cwd base .inPlace p set =
      .write (Rule.applyAll set.rules text.toList) := by
    unfold planFile readSource
    simp only [noFaults, hread, if_neg hne]
  unfold rewriteFile writeSource
  rw [hplan]
  simp only [h.writeAtomic_noFaults hd (refusal?_eq_none hfault)]

theorem planFile_of_unreadable (h : t.entryAt cwd (base ++ p) = .error f) (hne : f ≠ .notFound) :
    planFile noFaults t cwd base mode p set =
      .settled (.failed p (.readFailure (base ++ p) f)) := by
  unfold planFile readSource readText fileAt
  simp only [noFaults, h]

theorem rewriteFile_of_unreadable (h : t.entryAt cwd (base ++ p) = .error f)
    (hne : f ≠ .notFound) :
    rewriteFile noFaults t cwd base mode p set =
      (t, .failed p (.readFailure (base ++ p) f)) := by
  rw [rewriteFile, planFile_of_unreadable h hne]

end

section
variable {s : Start} {t t' : FileTree} {p q : Path} {done done' targets : List Path}
  {l : Location} {d : FileData}

/-! ## What was written -/

theorem Start.wrote_nil (s : Start) : s.Wrote [] s.tree :=
  ⟨fun _ => none, (overwrite_none s.tree).symm, by simp⟩

/-- What was written determines the tree. -/
theorem Start.Wrote.tree_eq (h : s.Wrote done t) (h' : s.Wrote done' t')
    (hsame : ∀ p l d, s.Writes p l d → (p ∈ done ↔ p ∈ done')) : t = t' := by
  obtain ⟨w, rfl, hw⟩ := h
  obtain ⟨w', rfl, hw'⟩ := h'
  have heq : w = w' := by
    funext l
    refine Option.ext fun d => ?_
    rw [hw, hw']
    refine exists_congr fun p => and_congr_left fun hwrites => hsame p l d hwrites
  rw [heq]

theorem Start.Wrote.congr (h : s.Wrote done t) (hsame : ∀ p, p ∈ done ↔ p ∈ done') :
    s.Wrote done' t := by
  obtain ⟨w, rfl, hw⟩ := h
  exact ⟨w, rfl, fun l d => by simp only [hw, hsame]⟩

theorem Start.Writes.stood (h : s.Writes p l d) : l ≠ [] ∧ s.tree.get? l ≠ none := by
  cases h with
  | intro _ _ hsite => exact ⟨by simp, hsite.stood.get?_ne_none⟩

/-- What is written for a target stands there. -/
theorem Start.Wrote.get?_of_writes (h : s.Wrote done t) (hp : p ∈ done) (hd : s.Writes p l d) :
    t.get? l = some (.file d) := by
  obtain ⟨w, rfl, hw⟩ := h
  exact get?_overwrite_of_some hd.stood.1 ((hw l d).mpr ⟨p, hp, hd⟩) hd.stood.2

/-- Nothing else has changed. -/
theorem Start.Wrote.get?_eq_or (h : s.Wrote done t) (l : Location) :
    t.get? l = s.tree.get? l ∨
      ∃ p ∈ done, ∃ d, s.Writes p l d ∧ t.get? l = some (.file d) := by
  obtain ⟨w, rfl, hw⟩ := id h
  cases hl : w l with
  | none => exact .inl (get?_overwrite_of_none hl)
  | some d =>
    obtain ⟨p, hp, hd⟩ := (hw l d).mp hl
    exact .inr ⟨p, hp, d, hd, h.get?_of_writes hp hd⟩

theorem Start.Wrote.get?_none (h : s.Wrote done t) (hl : s.tree.get? l = none) :
    t.get? l = none := by
  obtain heq | ⟨p, -, d, hd, -⟩ := h.get?_eq_or l
  · rw [heq, hl]
  · exact absurd hl hd.stood.2

theorem Start.Wrote.altered (h : s.Wrote done t) :
    Altered s.tree (fun F => ∃ p ∈ done, (∃ l d, s.Writes p l d) ∧
      Resolves s.tree s.cwd (s.base ++ p) F) t := by
  intro l
  obtain heq | ⟨p, hp, d, hd, hget⟩ := h.get?_eq_or l
  · exact .inl heq
  · obtain ⟨F, hE, hF⟩ := hd.endsIn
    exact .inr (.inr ⟨F, ⟨p, hp, ⟨l, d, hd⟩, hF⟩, hE, d, hget⟩)

theorem Start.Wrote.wellFormed (h : s.Wrote done t) (hw : s.tree.WellFormed) : t.WellFormed := by
  intro dir name e he
  cases he' : s.tree.get? (dir ++ [name]) with
  | none =>
    rw [h.get?_none he'] at he
    cases he
  | some e' =>
    obtain ⟨isSealed, hdir⟩ := hw dir name e' he'
    exact ⟨isSealed, h.altered.dir_iff.mpr hdir⟩

/-! ## Where targets lead -/

/-- A target leads where it did if what was written is for targets that lead to other files. -/
theorem Start.Wrote.entryAt_eq (h : s.Wrote done t) (hw : s.tree.WellFormed)
    (hp : ∀ q ∈ done, ∀ l d, s.Writes q l d → s.Apart p q) :
    t.entryAt s.cwd (s.base ++ p) = s.tree.entryAt s.cwd (s.base ++ p) := by
  refine entryAt_altered h.altered hw (fun _ _ _ _ _ hnone => h.get?_none hnone) ?_
  rintro F ⟨q, hq, ⟨l, d, hd⟩, hF⟩
  exact ⟨hF.2.1, fun hF' => hp q hq l d hd F hF' hF⟩

theorem Start.Wrote.entryAt_of_writes (h : s.Wrote done t) (hp : p ∈ done)
    (hd : s.Writes p l d) : t.entryAt s.cwd (s.base ++ p) = .ok (l, .file d) := by
  have hget := h.get?_of_writes hp hd
  cases hd with
  | intro _ _ hsite => exact (hsite.slot.altered h.altered).entryAt hget

/-! ## One target -/

theorem Start.Wrote.cons_of_not_writes (h : s.Wrote done t) (hp : ∀ l d, ¬ s.Writes p l d) :
    s.Wrote (p :: done) t := by
  obtain ⟨w, rfl, hw⟩ := h
  refine ⟨w, rfl, fun l d => ?_⟩
  rw [hw]
  simp [hp l d]

theorem Start.Wrote.cons_of_writes (h : s.Wrote done t) (hd : s.Writes p l d)
    (hp : ∀ q ∈ done, s.Apart p q) : s.Wrote (p :: done) (t.set l (.file d)) := by
  obtain ⟨w, rfl, hw⟩ := h
  refine ⟨_, set_overwrite hd.stood.1 hd.stood.2 d, fun l' d' => ?_⟩
  simp only [List.mem_cons, exists_eq_or_imp]
  by_cases hl : l' = l
  · subst hl
    rw [if_pos rfl]
    constructor
    · intro heq
      cases heq
      exact .inl hd
    · rintro (hd' | ⟨q, hq, hd'⟩)
      · rw [(hd.unique hd').2]
      · exact absurd hd' ((hp q hq).not_writes hd)
  · rw [if_neg hl, hw]
    refine ⟨.inr, fun h => h.resolve_left fun hd' => ?_⟩
    exact hl (hd.unique hd').1.symm

/-- A target that leads to a file of its own is rewritten as foreseen, whatever was written
before. -/
theorem Start.rewriteFile_wrote (h : s.Wrote done t) (hw : s.tree.WellFormed)
    (hp : ∀ q ∈ done, s.Apart p q) :
    ∃ t', rewriteFile noFaults t s.cwd s.base s.mode p (s.catalog.setFor p) =
      (t', s.foreseen p) ∧ s.Wrote (p :: done) t' := by
  have hentry := h.entryAt_eq hw fun q hq _ _ _ => hp q hq
  have hplan : planFile noFaults t s.cwd s.base s.mode p (s.catalog.setFor p) = s.plan p :=
    planFile_congr hentry
  cases hcase : s.plan p with
  | settled o =>
    refine ⟨t, ?_, h.cons_of_not_writes fun l d hd => ?_⟩
    · rw [rewriteFile, hplan, Start.foreseen, hcase]
    · obtain ⟨result, hwrite, -⟩ := hd.plan_eq
      rw [hcase] at hwrite
      cases hwrite
  | write result =>
    obtain ⟨dir, name, F, old, hsite⟩ := s.exists_site hw hcase
    obtain ⟨isSealed, hdir⟩ := hsite.slot.isDir
    -- the slot is the same in both trees, and so is what comes of writing there
    obtain ⟨dir', name', hsite'⟩ :=
      StagedWrite.exists_site (h.wellFormed hw) (hentry.trans hsite.led)
    obtain ⟨rfl, rfl⟩ := (hsite.slot.altered h.altered).unique hsite'.slot
    have hwrite := hsite'.writeAtomic_eq (h.altered.dir_iff.mpr hdir) noFaults
      (.ofList result.text)
    rw [firstFault_noFaults] at hwrite
    have hcreate := hsite.slot.create_eq (altered_refl (P := fun _ => False) s.tree) hdir
    cases hrefusal : refusal? s.cwd (s.base ++ p) isSealed with
    | some e =>
      rw [hrefusal] at hwrite hcreate
      have hforeseen : s.foreseen p = .unwritten p (.writeFailure (s.base ++ p) e) result := by
        simp [Start.foreseen, hcase, hcreate]
      refine ⟨t, ?_, h.cons_of_not_writes fun l d hd => ?_⟩
      · rw [rewriteFile, hplan, hcase, hforeseen]
        simp [writeSource, hwrite]
      · obtain ⟨result', -, heq⟩ := hd.plan_eq
        cases congrArg Outcome.status (hforeseen.symm.trans heq)
    | none =>
      rw [hrefusal] at hwrite hcreate
      have hforeseen : s.foreseen p = .succeeded p .rewritten result := by
        simp [Start.foreseen, hcase, hcreate]
      refine ⟨_, ?_, h.cons_of_writes (.intro hcase hforeseen hsite) hp⟩
      rw [rewriteFile, hplan, hcase, hforeseen]
      simp [writeSource, hwrite]

/-! ## Whole runs -/

/-- Targets that lead to files of their own are all rewritten as foreseen. -/
theorem Start.rewriteEach_wrote (h : s.Wrote done t) (hw : s.tree.WellFormed)
    (hapart : targets.Pairwise s.Apart) (hp : ∀ p ∈ targets, ∀ q ∈ done, s.Apart p q) :
    ∃ t', rewriteEach s.catalog s.cwd s.base s.mode targets t =
      (t', targets.map s.foreseen) ∧ s.Wrote (targets ++ done) t' := by
  induction targets generalizing done t with
  | nil => exact ⟨t, rfl, h⟩
  | cons p targets ih =>
    obtain ⟨hfirst, hrest⟩ := List.pairwise_cons.mp hapart
    obtain ⟨hpdone, hrestdone⟩ := List.forall_mem_cons.mp hp
    obtain ⟨t₁, hfile, h₁⟩ := s.rewriteFile_wrote h hw hpdone
    obtain ⟨t₂, heach, h₂⟩ := ih h₁ hrest fun q hq =>
      List.forall_mem_cons.mpr ⟨(hfirst q hq).symm, hrestdone q hq⟩
    refine ⟨t₂, ?_, h₂.congr fun q => by simp [or_left_comm]⟩
    simp only [rewriteEach, hfile, heach, List.map_cons]

/-- A run in order does with each target what is foreseen for it. -/
theorem Separate.rewriteEach_eq (h : Separate s.tree s.cwd s.base targets) :
    ∃ t, rewriteEach s.catalog s.cwd s.base s.mode targets s.tree =
      (t, targets.map s.foreseen) ∧ s.Wrote targets t := by
  obtain ⟨t, heach, ht⟩ := s.rewriteEach_wrote s.wrote_nil h.wellFormed h.apart nofun
  exact ⟨t, heach, by simpa using ht⟩

end

end Amend
