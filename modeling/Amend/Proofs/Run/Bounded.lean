import Amend.Proofs.Run.Interleaving

/-!
# What workers leave alone

Whether or not workers get in each other's way, they only add temporary files and put files in the
place of what led to one (`Start.bounded_after`). All that this takes is that no target comes to
lead to a file that did not do so before (`Start.Recognizes`).
-/

set_option autoImplicit false

namespace Amend

open FileTree StagedWrite

variable {s : Start} {t t' : FileTree} {p : Path} {pr : Progress} {d : FileData}
  {workers : List Worker} {targets : List Path} {P : Location → Prop}

/-! ## What is known of workers -/

/-- A target led to a file before the run. -/
def Start.Led (s : Start) (p : Path) : Prop :=
  ∃ F d, s.tree.entryAt s.cwd (s.base ++ p) = .ok (F, .file d)

/-- However files are altered, the target leads to one only if it did before the run. -/
def Start.Recognizes (s : Start) (p : Path) : Prop :=
  ∀ t, Altered s.tree (fun _ => True) t → ∀ F d,
    t.entryAt s.cwd (s.base ++ p) = .ok (F, .file d) → s.Led p

theorem Start.Led.recognizes (h : s.Led p) : s.Recognizes p :=
  fun _ _ _ _ _ => h

/-- What is known of a worker and its temporary file, whatever the others do. -/
def Start.Knows (s : Start) (p : Path) : Progress → Prop
  | .waiting => True
  | .computed _ => s.Led p
  | .created w _ | .filled w _ | .readied w _ =>
    s.Led p ∧ w.target = s.base ++ p ∧ s.tree.get? w.temp = none ∧
      ∃ dir k, w.temp = dir ++ [tempName k]
  | .finished o => o.status = .rewritten → s.Led p

/-- What is known of workers, whether or not they get in each other's way. -/
structure Start.Bounded (s : Start) (t : FileTree) (workers : List Worker) : Prop where
  tree : Altered s.tree (fun _ => True) t
  knows : ∀ k ∈ workers, s.Knows k.target k.progress

/-! ## Operations on altered trees -/

theorem altered_append {w : StagedWrite} {dir : Location} {n : Nat} (h : Altered t P t')
    (hfree : t.get? w.temp = none) (hl : w.temp = dir ++ [tempName n]) (contents : String) :
    Altered t P (w.append t' contents) := by
  unfold StagedWrite.append
  split
  · exact altered_set_temp h hfree hl _
  · exact h

theorem altered_copyMode {w : StagedWrite} {dir : Location} {n : Nat} (h : Altered t P t')
    (hfree : t.get? w.temp = none) (hl : w.temp = dir ++ [tempName n]) (cwd : Location) :
    Altered t P (w.copyMode t' cwd) := by
  unfold StagedWrite.copyMode
  split
  · exact altered_set_temp h hfree hl _
  · exact h

/-- A renaming to a target that led to a file before puts a file in the place of that one. -/
theorem altered_replace {w : StagedWrite} {cwd F : Location}
    (h : Altered t (fun _ => True) t') (hfree : t.get? w.temp = none)
    (hled : t.entryAt cwd w.target = .ok (F, .file d)) {t'' : FileTree}
    (hr : w.replace t' cwd = .ok t'') : Altered t (fun _ => True) t'' := by
  obtain ⟨dir, name, e, hslot, -, he, rfl⟩ := replace_eq_ok.mp hr
  obtain ⟨hf, hF, m, hwalk⟩ := entryAt_eq_ok.mp hled
  obtain ⟨dir', hslot', hE⟩ := exists_slot hf hslot.slash hslot.last hF hwalk
  obtain ⟨rfl, -⟩ := (hslot'.altered h).unique hslot
  have hfile : ∃ d, e = .file d := by
    rcases h w.temp with hsame | ⟨-, -, -, -, d, hd⟩ | ⟨F, -, -, d, hd⟩
    · rw [hsame, hfree] at he
      cases he
    · exact ⟨d, Option.some.inj (he.symm.trans hd)⟩
    · exact ⟨d, Option.some.inj (he.symm.trans hd)⟩
  obtain ⟨d', rfl⟩ := hfile
  intro l
  by_cases heq : l = dir' ++ [name]
  · subst heq
    exact .inr (.inr ⟨F, trivial, hE, d', get?_set_self (by simp)⟩)
  · rw [get?_set_ne heq]
    exact altered_erase_temp h hfree l

/-! ## Turns -/

theorem Start.Bounded.step (h : s.Bounded t workers) (hp : s.Recognizes p)
    (hknows : s.Knows p pr) :
    Altered s.tree (fun _ => True) (pr.step s.catalog s.cwd s.base s.mode p t).1 ∧
      s.Knows p (pr.step s.catalog s.cwd s.base s.mode p t).2 := by
  cases pr with
  | waiting =>
    refine ⟨h.tree, ?_⟩
    simp only [Progress.step]
    cases hplan : planFile noFaults t s.cwd s.base s.mode p (s.catalog.setFor p) with
    | settled o =>
      intro hstatus
      have := planFile_settled hplan
      rw [hstatus] at this
      simp at this
    | write result =>
      obtain ⟨-, old, hold, -⟩ := planFile_eq_write hplan
      obtain ⟨F, d, hF, -⟩ := exists_entryAt_of_readText hold
      exact hp t h.tree F d hF
  | computed result =>
    simp only [Progress.step]
    split
    · next w t' hcreate =>
      obtain ⟨-, dir, -, rfl, rfl⟩ := create_eq_ok.mp hcreate
      have hfree := h.tree.free (freshName_free t dir)
      obtain ⟨k, hk⟩ := freshName_eq t dir
      have hname : dir ++ [freshName t dir] = dir ++ [tempName k] := by rw [hk]
      exact ⟨altered_set_temp h.tree hfree hname _, hknows, rfl, hfree, dir, k, hname⟩
    · exact ⟨h.tree, fun hstatus => by cases hstatus⟩
  | created w result =>
    obtain ⟨dir, k, hname⟩ := hknows.2.2.2
    exact ⟨altered_append h.tree hknows.2.2.1 hname _, hknows⟩
  | filled w result =>
    obtain ⟨dir, k, hname⟩ := hknows.2.2.2
    exact ⟨altered_copyMode h.tree hknows.2.2.1 hname _, hknows⟩
  | readied w result =>
    obtain ⟨hled, htarget, hfree, -⟩ := hknows
    obtain ⟨F, d, hF⟩ := hled
    simp only [Progress.step]
    split
    · next t' hreplace =>
      exact ⟨altered_replace h.tree hfree (htarget ▸ hF) hreplace, fun _ => ⟨F, d, hF⟩⟩
    · exact ⟨altered_erase_temp h.tree hfree, fun hstatus => by cases hstatus⟩
  | finished o => exact ⟨h.tree, hknows⟩

theorem Start.Bounded.die (h : s.Bounded t workers) (hknows : s.Knows p pr) (reason : String) :
    Altered s.tree (fun _ => True) (pr.die p reason t).1 ∧ s.Knows p (pr.die p reason t).2 := by
  cases pr with
  | waiting | computed => exact ⟨h.tree, nofun⟩
  | created w result | filled w result | readied w result =>
    exact ⟨altered_erase_temp h.tree hknows.2.2.1, nofun⟩
  | finished o => exact ⟨h.tree, hknows⟩

theorem Start.Bounded.takeTurn (h : s.Bounded t workers)
    (hp : ∀ k ∈ workers, s.Recognizes k.target) (turn : Turn) :
    s.Bounded (takeTurn s.catalog s.cwd s.base s.mode t workers turn).1
      (takeTurn s.catalog s.cwd s.base s.mode t workers turn).2 := by
  cases hk : workers[turn.worker]? with
  | none =>
    rw [takeTurn_eq_self _ _ _ _ _ _ hk]
    exact h
  | some k =>
    obtain ⟨pre, post, rfl, hpre⟩ := exists_split hk
    rw [takeTurn_eq _ _ _ _ _ _ hpre]
    have hmem : k ∈ pre ++ k :: post := by simp
    have htake : Altered s.tree (fun _ => True) (k.take s.catalog s.cwd s.base s.mode t turn).1 ∧
        s.Knows (k.take s.catalog s.cwd s.base s.mode t turn).2.target
          (k.take s.catalog s.cwd s.base s.mode t turn).2.progress := by
      cases turn with
      | step => exact h.step (hp k hmem) (h.knows k hmem)
      | death _ reason => exact h.die (h.knows k hmem) reason
    refine ⟨htake.1, fun j hj => ?_⟩
    rcases List.mem_append.mp hj with hj | hj
    · exact h.knows j (by simp [hj])
    · rcases List.mem_cons.mp hj with rfl | hj
      · exact htake.2
      · exact h.knows j (by simp [hj])

theorem Start.bounded_after (hp : ∀ p ∈ targets, s.Recognizes p) (turns : List Turn) :
    s.Bounded (s.after turns targets).1 (s.after turns targets).2 := by
  induction turns using List.reverseRecOn with
  | nil =>
    refine ⟨altered_refl s.tree, fun k hk => ?_⟩
    obtain ⟨p, -, rfl⟩ := List.mem_map.mp hk
    trivial
  | append_singleton turns turn ih =>
    rw [after_concat]
    refine ih.takeTurn (fun k hk => hp k.target ?_) turn
    have hmem := List.mem_map_of_mem (f := Worker.target) hk
    rwa [s.targets_after] at hmem

end Amend
