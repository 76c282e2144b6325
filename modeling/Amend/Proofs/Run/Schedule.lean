import Amend.Proofs.FileTree.Overlay
import Amend.Proofs.FileTree.Site
import Amend.Proofs.Run.AllOrNothing
import Amend.Run.Worker

/-!
# Workers on one tree

While workers take turns, the tree is the one before the run with the files of finished workers
overwritten and with the temporary files of the others (`Start.Inv`). Every worker finds its target
as it was before the run, so it does what it would do alone (`Start.foreseen`); `Inv.step` and
`Inv.die` say that a turn keeps this so.
-/

set_option autoImplicit false

namespace Amend

open FileTree StagedWrite

/-- What the workers of a run start from. -/
structure Start where
  catalog : Catalog
  cwd : Location
  base : Path
  mode : WriteMode
  tree : FileTree

/-- Where a worker has a temporary file. -/
def Progress.temp? : Progress → Option Location
  | created staged _ | filled staged _ | readied staged _ => some staged.temp
  | _ => none

/-- Where there are temporary files. -/
def temps (workers : List Worker) : List Location :=
  workers.filterMap fun k => k.progress.temp?

namespace Start

variable (s : Start)

/-! ## What is foreseen -/

/-- What is to be done about a target as it was before the run. -/
def plan (p : Path) : Plan :=
  planFile noFaults s.tree s.cwd s.base s.mode p (s.catalog.setFor p)

/-- What becomes of a target if nothing else happens. -/
def foreseen (p : Path) : Outcome :=
  match s.plan p with
  | .settled o => o
  | .write result =>
    match create s.tree s.cwd (s.base ++ p) with
    | .error e => .unwritten p (.writeFailure (s.base ++ p) e) result
    | .ok _ => .succeeded p .rewritten result

/-- The file that is written for a target, and where. -/
inductive Writes (p : Path) : Location → FileData → Prop
  | intro {result : Rewrite} {dir : Location} {name : String} {F : Location} {old : FileData} :
      s.plan p = .write result → s.foreseen p = .succeeded p .rewritten result →
      Site s.tree s.cwd (s.base ++ p) dir name F old →
      Writes p (dir ++ [name]) ⟨(String.ofList result.text).toUTF8, old.mode, none⟩

/-- Whether two targets lead to different files. -/
def Apart (p q : Path) : Prop :=
  ∀ F, Resolves s.tree s.cwd (s.base ++ p) F → ¬ Resolves s.tree s.cwd (s.base ++ q) F

/-- A temporary file of a worker with its data. -/
structure Holds (t : FileTree) (p : Path) (w : StagedWrite) (result : Rewrite) (d : FileData) :
    Prop where
  plan : s.plan p = .write result
  foreseen : s.foreseen p = .succeeded p .rewritten result
  target : w.target = s.base ++ p
  free : s.tree.get? w.temp = none
  named : ∃ dir k, w.temp = dir ++ [tempName k]
  holds : t.get? w.temp = some (.file d)

/-- A worker has done what it would do alone. -/
def Fits (t : FileTree) (p : Path) : Progress → Prop
  | .waiting => True
  | .computed result => s.plan p = .write result
  | .created w result => s.Holds t p w result emptyTemp
  | .filled w result =>
    s.Holds t p w result ⟨(String.ofList result.text).toUTF8, tempMode, none⟩
  | .readied w result => ∃ F old, s.tree.entryAt s.cwd (s.base ++ p) = .ok (F, .file old) ∧
    s.Holds t p w result ⟨(String.ofList result.text).toUTF8, old.mode, none⟩
  | .finished o => o = s.foreseen p ∨ ∃ reason, o = .aborted p reason

/-- A finished worker has put a file at a location. -/
def Written (workers : List Worker) (l : Location) (d : FileData) : Prop :=
  ∃ k ∈ workers, k.progress = .finished (s.foreseen k.target) ∧ s.Writes k.target l d

/-- Between their turns, workers have done what they would do alone, and the tree holds what they
have written and their temporary files. -/
structure Inv (t : FileTree) (workers : List Worker) : Prop where
  wellFormed : s.tree.WellFormed
  avoids : ∀ k ∈ workers, s.tree.AvoidsTemps ((s.base ++ k.target).stage linkLimit s.cwd)
  apart : workers.Pairwise fun k k' => s.Apart k.target k'.target
  fits : ∀ k ∈ workers, s.Fits t k.target k.progress
  distinct : workers.Pairwise fun k k' =>
    ∀ l, k.progress.temp? = some l → k'.progress.temp? ≠ some l
  tree : ∃ w, t.without (temps workers) = s.tree.overwrite w ∧
    ∀ l d, w l = some d ↔ s.Written workers l d

end Start

section
variable {s : Start} {t t' : FileTree} {k : Worker} {rest workers : List Worker} {p q : Path}
  {l : Location} {d : FileData} {pr : Progress}

/-! ## The order of the workers -/

theorem Start.Apart.symm (h : s.Apart p q) : s.Apart q p :=
  fun F hq hp => h F hp hq

theorem mem_temps : l ∈ temps workers ↔ ∃ k ∈ workers, k.progress.temp? = some l :=
  List.mem_filterMap

theorem Start.Inv.perm {workers' : List Worker} (h : s.Inv t workers)
    (hp : workers.Perm workers') : s.Inv t workers' := by
  obtain ⟨w, htree, hw⟩ := h.tree
  refine ⟨h.wellFormed, fun k hk => h.avoids k (hp.mem_iff.mpr hk),
    h.apart.perm hp fun hk => hk.symm, fun k hk => h.fits k (hp.mem_iff.mpr hk),
    h.distinct.perm hp fun hk l hl hl' => hk l hl' hl, w, ?_, fun l d => ?_⟩
  · rw [← htree]
    refine without_congr fun l _ => ?_
    simp only [mem_temps, hp.mem_iff]
  · simp only [hw, Start.Written, hp.mem_iff]

/-! ## One worker and the others -/

theorem Start.Fits.of_temp (h : s.Fits t p pr) (hl : pr.temp? = some l) :
    s.tree.get? l = none ∧ (∃ dir n, l = dir ++ [tempName n]) ∧ ∃ d, t.get? l = some (.file d) := by
  cases pr with
  | waiting | computed | finished => cases hl
  | created w result | filled w result =>
    cases hl
    exact ⟨h.free, h.named, _, h.holds⟩
  | readied w result =>
    cases hl
    obtain ⟨F, old, -, h⟩ := h
    exact ⟨h.free, h.named, _, h.holds⟩

/-- What a worker knows of the tree is what its temporary file holds. -/
theorem Start.Fits.frame (h : s.Fits t p pr) (ht : ∀ l, pr.temp? = some l → t'.get? l = t.get? l) :
    s.Fits t' p pr := by
  cases pr with
  | waiting | computed | finished => exact h
  | created w result | filled w result =>
    exact { h with holds := (ht _ rfl).trans h.holds }
  | readied w result =>
    obtain ⟨F, old, hled, h⟩ := h
    exact ⟨F, old, hled, { h with holds := (ht _ rfl).trans h.holds }⟩

/-- The tree as a worker sees it that has written nothing: altered for the sake of the others. -/
theorem Start.Inv.altered (h : s.Inv t (k :: rest))
    (hk : k.progress ≠ .finished (s.foreseen k.target)) :
    Altered s.tree (fun F => ∃ j ∈ rest, Resolves s.tree s.cwd (s.base ++ j.target) F) t := by
  intro l
  by_cases hl : l ∈ temps (k :: rest)
  · obtain ⟨j, hj, hjl⟩ := mem_temps.mp hl
    obtain ⟨hfree, ⟨dir, n, hn⟩, d, hd⟩ := (h.fits j hj).of_temp hjl
    exact .inr (.inl ⟨hfree, dir, n, hn, d, hd⟩)
  · obtain ⟨w, htree, hw⟩ := h.tree
    rw [← get?_without hl, htree]
    cases hwl : w l with
    | none => exact .inl (get?_overwrite_of_none hwl)
    | some d =>
      obtain ⟨j, hj, hfin, hwrites⟩ := (hw l d).mp hwl
      cases hwrites with
      | @intro result dir name F old hplan hforeseen hsite =>
        have hmem : j ∈ rest := by
          rcases List.mem_cons.mp hj with rfl | hj
          · exact absurd hfin hk
          · exact hj
        exact .inr (.inr ⟨F, ⟨j, hmem, hsite.resolves⟩, hsite.stood, _,
          get?_overwrite_of_some (by simp) hwl hsite.stood.get?_ne_none⟩)

/-- A worker that has written nothing finds its target as it was before the run. -/
theorem Start.Inv.entryAt_eq (h : s.Inv t (k :: rest))
    (hk : k.progress ≠ .finished (s.foreseen k.target)) :
    t.entryAt s.cwd (s.base ++ k.target) = s.tree.entryAt s.cwd (s.base ++ k.target) := by
  have ha := h.altered hk
  refine entryAt_altered ha h.wellFormed ((h.avoids k List.mem_cons_self).keepsGaps ha) ?_
  rintro F ⟨j, hj, hF⟩
  exact ⟨hF.2.1, fun hF' => (List.pairwise_cons.mp h.apart).1 j hj F hF' hF⟩

theorem planFile_congr {c : Catalog} {cwd : Location} {base : Path} {mode : WriteMode}
    (h : t.entryAt cwd (base ++ p) = t'.entryAt cwd (base ++ p)) :
    planFile noFaults t cwd base mode p (c.setFor p) =
      planFile noFaults t' cwd base mode p (c.setFor p) := by
  unfold planFile readSource readText fileAt
  rw [h]

/-! ## Changes by one worker -/

theorem temps_cons_of_none (h : pr.temp? = none) : temps (⟨p, pr⟩ :: rest) = temps rest := by
  simp [temps, h]

theorem temps_cons_of_some (h : pr.temp? = some l) : temps (⟨p, pr⟩ :: rest) = l :: temps rest := by
  simp [temps, h]

theorem Start.written_cons : s.Written (⟨p, pr⟩ :: rest) l d ↔
    pr = .finished (s.foreseen p) ∧ s.Writes p l d ∨ s.Written rest l d := by
  simp [Start.Written]

theorem Start.Inv.temp_notMem (h : s.Inv t (⟨p, pr⟩ :: rest)) (hl : pr.temp? = some l) :
    l ∉ temps rest := by
  rw [mem_temps]
  rintro ⟨j, hj, hjl⟩
  exact (List.pairwise_cons.mp h.distinct).1 j hj l hl hjl

/-- What is to be shown of a worker that goes on: the others do not notice, and the tree is still
that before the run with what was written and the temporary files. -/
theorem Start.Inv.update {pr' : Progress} (h : s.Inv t (⟨p, pr⟩ :: rest))
    (hfits : s.Fits t' p pr') (hframe : ∀ l ∈ temps rest, t'.get? l = t.get? l)
    (hnew : ∀ l, pr'.temp? = some l → l ∉ temps rest)
    (htree : ∃ w, t'.without (temps (⟨p, pr'⟩ :: rest)) = s.tree.overwrite w ∧
      ∀ l d, w l = some d ↔ s.Written (⟨p, pr'⟩ :: rest) l d) :
    s.Inv t' (⟨p, pr'⟩ :: rest) := by
  obtain ⟨havoid, havoids⟩ := List.forall_mem_cons.mp h.avoids
  obtain ⟨hapart, haparts⟩ := List.pairwise_cons.mp h.apart
  obtain ⟨-, hdistinct⟩ := List.pairwise_cons.mp h.distinct
  refine ⟨h.wellFormed, List.forall_mem_cons.mpr ⟨havoid, havoids⟩,
    List.pairwise_cons.mpr ⟨hapart, haparts⟩, List.forall_mem_cons.mpr ⟨hfits, fun j hj => ?_⟩,
    List.pairwise_cons.mpr ⟨fun j hj l hl hjl => ?_, hdistinct⟩, htree⟩
  · exact (h.fits j (List.mem_cons_of_mem _ hj)).frame fun l hl =>
      hframe l (mem_temps.mpr ⟨j, hj, hl⟩)
  · exact hnew l hl (mem_temps.mpr ⟨j, hj, hjl⟩)

/-- As long as a worker has written nothing, it has no part in what was written. -/
theorem Start.Inv.tree_of_unwritten {pr' : Progress} (h : s.Inv t (⟨p, pr⟩ :: rest))
    (hpr : pr.outcome? = none)
    (hpr' : ∀ l d, pr' = .finished (s.foreseen p) → ¬ s.Writes p l d)
    (hsame : t'.without (temps (⟨p, pr'⟩ :: rest)) = t.without (temps (⟨p, pr⟩ :: rest))) :
    ∃ w, t'.without (temps (⟨p, pr'⟩ :: rest)) = s.tree.overwrite w ∧
      ∀ l d, w l = some d ↔ s.Written (⟨p, pr'⟩ :: rest) l d := by
  obtain ⟨w, htree, hw⟩ := h.tree
  refine ⟨w, hsame.trans htree, fun l d => ?_⟩
  rw [hw, Start.written_cons, Start.written_cons]
  constructor
  · rintro (⟨rfl, -⟩ | hrest)
    · cases hpr
    · exact .inr hrest
  · rintro (⟨heq, hwrites⟩ | hrest)
    · exact absurd hwrites (hpr' l d heq)
    · exact .inr hrest

/-- A worker goes on without touching the tree. -/
theorem Start.Inv.settle {pr' : Progress} (h : s.Inv t (⟨p, pr⟩ :: rest))
    (hpr : pr.outcome? = none) (htemp : pr.temp? = none) (htemp' : pr'.temp? = none)
    (hfits : s.Fits t p pr') (hpr' : ∀ l d, pr' = .finished (s.foreseen p) → ¬ s.Writes p l d) :
    s.Inv t (⟨p, pr'⟩ :: rest) := by
  refine h.update hfits (fun _ _ => rfl) (fun l hl => ?_) (h.tree_of_unwritten hpr hpr' ?_)
  · rw [htemp'] at hl
    cases hl
  · rw [temps_cons_of_none htemp, temps_cons_of_none htemp']

/-- A worker writes to its temporary file. -/
theorem Start.Inv.refill {pr' : Progress} {e : Entry} (h : s.Inv t (⟨p, pr⟩ :: rest))
    (hpr : pr.outcome? = none) (htemp : pr.temp? = some l) (htemp' : pr'.temp? = some l)
    (hfits : s.Fits (t.set l e) p pr') : s.Inv (t.set l e) (⟨p, pr'⟩ :: rest) := by
  have hnot := h.temp_notMem htemp
  refine h.update hfits (fun l' hl' => get?_set_ne (ne_of_mem_of_not_mem hl' hnot)) ?_
    (h.tree_of_unwritten hpr ?_ ?_)
  · rintro l' hl'
    rw [htemp'] at hl'
    cases hl'
    exact hnot
  · rintro l' d' rfl
    cases htemp'
  · rw [temps_cons_of_some htemp, temps_cons_of_some htemp']
    exact without_set_of_mem List.mem_cons_self e

/-- A worker removes its temporary file. -/
theorem Start.Inv.discard {pr' : Progress} (h : s.Inv t (⟨p, pr⟩ :: rest))
    (hpr : pr.outcome? = none) (htemp : pr.temp? = some l) (htemp' : pr'.temp? = none)
    (hfits : s.Fits (t.erase l) p pr')
    (hpr' : ∀ l d, pr' = .finished (s.foreseen p) → ¬ s.Writes p l d) :
    s.Inv (t.erase l) (⟨p, pr'⟩ :: rest) := by
  have hnot := h.temp_notMem htemp
  refine h.update hfits (fun l' hl' => get?_erase_ne (ne_of_mem_of_not_mem hl' hnot)) ?_
    (h.tree_of_unwritten hpr hpr' ?_)
  · rintro l' hl'
    rw [htemp'] at hl'
    cases hl'
  · rw [temps_cons_of_none htemp', temps_cons_of_some htemp, without_erase]

/-! ## Steps -/

section
variable {result : Rewrite} {w : StagedWrite} {old : FileData} {F : Location}

theorem Start.status_foreseen (s : Start) (p : Path) : (s.foreseen p).status ≠ .aborted := by
  intro hstatus
  unfold Start.foreseen at hstatus
  split at hstatus
  · next o ho =>
    have := planFile_settled ho
    rw [hstatus] at this
    simp at this
  · split at hstatus <;> cases hstatus

theorem Start.foreseen_ne_aborted (s : Start) (p : Path) (reason : String) :
    s.foreseen p ≠ .aborted p reason := by
  intro h
  refine s.status_foreseen p ?_
  rw [h]
  rfl

theorem Start.Writes.plan_eq (h : s.Writes p l d) : ∃ result, s.plan p = .write result ∧
    s.foreseen p = .succeeded p .rewritten result := by
  cases h with
  | intro hplan hforeseen => exact ⟨_, hplan, hforeseen⟩

theorem Start.Writes.unique {l' : Location} {d' : FileData} (h : s.Writes p l d)
    (h' : s.Writes p l' d') : l = l' ∧ d = d' := by
  cases h with
  | intro hplan _ hsite =>
    cases h' with
    | intro hplan' _ hsite' =>
      cases hplan.symm.trans hplan'
      cases hsite.led.symm.trans hsite'.led
      obtain ⟨rfl, rfl⟩ := hsite.slot.unique hsite'.slot
      exact ⟨rfl, rfl⟩

theorem Start.Writes.endsIn (h : s.Writes p l d) :
    ∃ F, EndsIn s.tree l F ∧ Resolves s.tree s.cwd (s.base ++ p) F := by
  cases h with
  | intro _ _ hsite => exact ⟨_, hsite.stood, hsite.resolves⟩

theorem Start.Apart.not_writes {d' : FileData} (ha : s.Apart p q) (h : s.Writes p l d) :
    ¬ s.Writes q l d' := by
  intro h'
  obtain ⟨F, hE, hF⟩ := h.endsIn
  obtain ⟨F', hE', hF'⟩ := h'.endsIn
  rw [← hE.unique hE'] at hF'
  exact ha F hF hF'

theorem Start.exists_site (hw : s.tree.WellFormed) (h : s.plan p = .write result) :
    ∃ dir name F old, Site s.tree s.cwd (s.base ++ p) dir name F old := by
  obtain ⟨-, old, hold, -⟩ := planFile_eq_write h
  obtain ⟨F, d, hF, -⟩ := exists_entryAt_of_readText hold
  obtain ⟨dir, name, hsite⟩ := StagedWrite.exists_site hw hF
  exact ⟨dir, name, F, d, hsite⟩

theorem Start.Inv.waiting (h : s.Inv t (⟨p, .waiting⟩ :: rest)) :
    s.Inv t (⟨p, .ofPlan (s.plan p)⟩ :: rest) := by
  cases hplan : s.plan p with
  | settled o =>
    refine h.settle rfl rfl rfl (.inl ?_) fun l d _ hwrites => ?_
    · simp [Start.foreseen, hplan]
    · obtain ⟨result, hwrite, -⟩ := hwrites.plan_eq
      rw [hplan] at hwrite
      cases hwrite
  | write result =>
    exact h.settle rfl rfl rfl hplan fun l d hfin => by cases hfin

theorem Start.Inv.computed (h : s.Inv t (⟨p, .computed result⟩ :: rest)) :
    match create t s.cwd (s.base ++ p) with
    | .ok (w, t') => s.Inv t' (⟨p, .created w result⟩ :: rest)
    | .error e => s.foreseen p = .unwritten p (.writeFailure (s.base ++ p) e) result ∧
        s.Inv t (⟨p, .finished (s.foreseen p)⟩ :: rest) := by
  have hplan : s.plan p = .write result := h.fits _ List.mem_cons_self
  obtain ⟨dir, name, F, old, hsite⟩ := s.exists_site h.wellFormed hplan
  obtain ⟨isSealed, hdir⟩ := hsite.slot.isDir
  have ha := h.altered nofun
  have hcreate := hsite.slot.create_eq ha hdir
  have hcreate' := hsite.slot.create_eq (altered_refl (P := fun _ => False) s.tree) hdir
  cases hrefusal : refusal? s.cwd (s.base ++ p) isSealed with
  | some e =>
    rw [hrefusal] at hcreate hcreate'
    have hforeseen : s.foreseen p = .unwritten p (.writeFailure (s.base ++ p) e) result := by
      simp [Start.foreseen, hplan, hcreate']
    rw [hcreate]
    refine ⟨hforeseen, h.settle rfl rfl rfl (.inl rfl) fun l d _ hwrites => ?_⟩
    obtain ⟨result', -, hsucceeded⟩ := hwrites.plan_eq
    have hstatus := congrArg Outcome.status (hforeseen.symm.trans hsucceeded)
    cases hstatus
  | none =>
    rw [hrefusal] at hcreate hcreate'
    have hforeseen : s.foreseen p = .succeeded p .rewritten result := by
      simp [Start.foreseen, hplan, hcreate']
    rw [hcreate]
    have hfree : t.get? (dir ++ [freshName t dir]) = none := freshName_free t dir
    have hnot : ∀ l ∈ temps rest, l ≠ dir ++ [freshName t dir] := by
      rintro l hl rfl
      obtain ⟨j, hj, hjl⟩ := mem_temps.mp hl
      obtain ⟨-, -, d, hd⟩ := (h.fits j (List.mem_cons_of_mem _ hj)).of_temp hjl
      rw [hfree] at hd
      cases hd
    obtain ⟨k, hk⟩ := freshName_eq t dir
    have hfits : s.Fits (t.set (dir ++ [freshName t dir]) (.file emptyTemp)) p
        (.created ⟨s.base ++ p, dir ++ [freshName t dir]⟩ result) :=
      ⟨hplan, hforeseen, rfl, ha.free hfree, ⟨dir, k, by rw [hk]⟩, get?_set_self (by simp)⟩
    refine h.update hfits (fun l hl => get?_set_ne (hnot l hl)) ?_
      (h.tree_of_unwritten rfl (fun _ _ => nofun) ?_)
    · rintro l hl hmem
      cases hl
      exact hnot _ hmem rfl
    · rw [temps_cons_of_some rfl, temps_cons_of_none rfl,
        without_set_of_mem List.mem_cons_self]
      refine without_congr fun l hl => ?_
      rw [List.mem_cons]
      refine ⟨fun hmem => hmem.resolve_left ?_, .inr⟩
      rintro rfl
      exact hl hfree

theorem Start.Inv.created (h : s.Inv t (⟨p, .created w result⟩ :: rest)) :
    s.Inv (w.append t (.ofList result.text)) (⟨p, .filled w result⟩ :: rest) := by
  have hw : s.Holds t p w result emptyTemp := h.fits _ List.mem_cons_self
  rw [append_of_file hw.holds]
  refine h.refill rfl rfl rfl { hw with holds := ?_ }
  rw [get?_set_self (ne_nil_of_get? hw.free)]
  simp [emptyTemp]

theorem Start.Inv.filled (h : s.Inv t (⟨p, .filled w result⟩ :: rest)) :
    s.Inv (w.copyMode t s.cwd) (⟨p, .readied w result⟩ :: rest) := by
  have hw : s.Holds t p w result ⟨(String.ofList result.text).toUTF8, tempMode, none⟩ :=
    h.fits _ List.mem_cons_self
  obtain ⟨dir, name, F, old, hsite⟩ := s.exists_site h.wellFormed hw.plan
  have hled : t.fileAt s.cwd w.target = .ok old := by
    rw [hw.target]
    exact fileAt_eq_ok.mpr ⟨F, (h.entryAt_eq nofun).trans hsite.led⟩
  rw [copyMode_of_file hw.holds hled]
  exact h.refill rfl rfl rfl
    ⟨F, old, hsite.led, { hw with holds := get?_set_self (ne_nil_of_get? hw.free) }⟩

/-- The new text is in its place: of all that was written, the file in the slot is this worker's
alone. -/
theorem Start.Inv.readied (h : s.Inv t (⟨p, .readied w result⟩ :: rest)) :
    s.foreseen p = .succeeded p .rewritten result ∧
      ∃ t', w.replace t s.cwd = .ok t' ∧ s.Inv t' (⟨p, .finished (s.foreseen p)⟩ :: rest) := by
  obtain ⟨F, old, hled, hw⟩ := h.fits _ List.mem_cons_self
  obtain ⟨dir, name, F', old', hsite⟩ := s.exists_site h.wellFormed hw.plan
  cases hled.symm.trans hsite.led
  have hwrites := Start.Writes.intro hw.plan hw.foreseen hsite
  have hslot : s.tree.get? (dir ++ [name]) ≠ none := hsite.stood.get?_ne_none
  have hnot : dir ++ [name] ∉ temps rest := by
    rw [mem_temps]
    rintro ⟨j, hj, hjl⟩
    exact hslot ((h.fits j (List.mem_cons_of_mem _ hj)).of_temp hjl).1
  refine ⟨hw.foreseen, _, (hw.target ▸ hsite).replace_eq (h.altered nofun) hw.holds, ?_⟩
  refine h.update (.inl rfl) (fun l hl => ?_) nofun ?_
  · rw [get?_set_ne (ne_of_mem_of_not_mem hl hnot),
      get?_erase_ne (ne_of_mem_of_not_mem hl (h.temp_notMem rfl))]
  obtain ⟨written, htree, hwritten⟩ := h.tree
  rw [temps_cons_of_some rfl] at htree
  refine ⟨fun l => if l = dir ++ [name] then
    some ⟨(String.ofList result.text).toUTF8, old.mode, none⟩ else written l, ?_, ?_⟩
  · rw [temps_cons_of_none rfl, without_set_of_notMem hnot, without_erase, htree,
      set_overwrite (by simp) hslot]
  intro l d
  have hrest : written l = some d ↔ s.Written rest l d := by
    rw [hwritten, Start.written_cons]
    simp
  rw [Start.written_cons]
  dsimp only
  by_cases hl : l = dir ++ [name]
  · subst hl
    rw [if_pos rfl]
    constructor
    · intro hd
      cases hd
      exact .inl ⟨rfl, hwrites⟩
    · rintro (⟨-, hd⟩ | ⟨j, hj, -, hd⟩)
      · rw [(hwrites.unique hd).2]
      · exact absurd hd (((List.pairwise_cons.mp h.apart).1 j hj).not_writes hwrites)
  · rw [if_neg hl, hrest]
    refine ⟨.inr, ?_⟩
    rintro (⟨-, hd⟩ | hd)
    · exact absurd (hwrites.unique hd).1.symm hl
    · exact hd

/-! ## Turns -/

/-- A worker that takes a step does what is foreseen. -/
theorem Start.Inv.step (h : s.Inv t (⟨p, pr⟩ :: rest)) :
    s.Inv (pr.step s.catalog s.cwd s.base s.mode p t).1
      (⟨p, (pr.step s.catalog s.cwd s.base s.mode p t).2⟩ :: rest) := by
  cases pr with
  | waiting =>
    have hplan : planFile noFaults t s.cwd s.base s.mode p (s.catalog.setFor p) = s.plan p :=
      planFile_congr (h.entryAt_eq nofun)
    simp only [Progress.step, hplan]
    exact h.waiting
  | computed result =>
    have hc := h.computed
    simp only [Progress.step]
    split
    · next hcreate =>
      rw [hcreate] at hc
      exact hc
    · next hcreate =>
      rw [hcreate] at hc
      rw [← hc.1]
      exact hc.2
  | created w result => exact h.created
  | filled w result => exact h.filled
  | readied w result =>
    obtain ⟨hforeseen, t', hreplace, hinv⟩ := h.readied
    simp only [Progress.step, hreplace]
    rw [← hforeseen]
    exact hinv
  | finished o => exact h

/-- A worker that dies leaves no temporary file. -/
theorem Start.Inv.die (h : s.Inv t (⟨p, pr⟩ :: rest)) (reason : String) :
    s.Inv (pr.die p reason t).1 (⟨p, (pr.die p reason t).2⟩ :: rest) := by
  have hne : ∀ l d, Progress.finished (.aborted p reason) = .finished (s.foreseen p) →
      ¬ s.Writes p l d := by
    intro l d hfin
    cases s.foreseen_ne_aborted p reason (Progress.finished.inj hfin).symm
  cases pr with
  | waiting | computed => exact h.settle rfl rfl rfl (.inr ⟨reason, rfl⟩) hne
  | created w result | filled w result | readied w result =>
    exact h.discard rfl rfl rfl (.inr ⟨reason, rfl⟩) hne
  | finished o => exact h

end

end

end Amend
