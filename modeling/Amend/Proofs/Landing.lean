import Amend.Proofs.Spelling
import Amend.Run.Rewriting

/-!
# Where a path lands

In a tree without links the walk along a path is its steps alone, so that a path leads nowhere but
to its landing (`landing_of_entryAt`). Two targets of the same kind without `..` that have one
landing have one normal form (`normalize_eq_of_landing_eq`), and of those only the first is kept
(`distinctTargets_pairwise`).
-/

set_option autoImplicit false

namespace Amend

/-- Where a step leads if no link is in the way. -/
def PathStep.leadFrom (loc : Location) : PathStep → Location
  | stay => loc
  | up => loc.dropLast
  | into name => loc ++ [name]

namespace Path

/-- Where the path leads if no link is in the way. -/
def landing (cwd : Location) (p : Path) : Location :=
  p.steps.foldl PathStep.leadFrom (p.origin cwd)

/-- Whether a segment of the path leads upwards. -/
def climbs (p : Path) : Bool :=
  p.segments.contains ['.', '.']

variable {p q : Path} {cwd loc : Location}

/-! ## Landings of paths -/

theorem foldl_leadFrom_strides (steps : List PathStep) (loc : Location) :
    (PathStep.strides steps).foldl PathStep.leadFrom loc = steps.foldl PathStep.leadFrom loc := by
  induction steps generalizing loc with
  | nil => rfl
  | cons step rest ih =>
    cases step with
    | stay => exact ih loc
    | up => exact ih loc.dropLast
    | into name => exact ih (loc ++ [name])

/-- A path lands where its segments lead. -/
theorem landing_eq (p : Path) (cwd : Location) :
    p.landing cwd = (stepsOf p.segments).foldl PathStep.leadFrom (p.origin cwd) := by
  rw [landing, ← foldl_leadFrom_strides, ← strides, strides_eq]

/-- A path that is read from another one lands where it does from the landing of that one. -/
theorem landing_append (base p : Path) (cwd : Location) :
    (base ++ p).landing cwd = p.landing (base.landing cwd) := by
  rw [landing_eq, landing_eq p, segments_append, origin, isAbsolute_append]
  cases hp : p.isAbsolute with
  | true => simp [origin, hp]
  | false =>
    rw [if_neg Bool.false_ne_true, stepsOf_append, List.foldl_append, landing_eq base]
    simp [origin, hp]

/-! ## Landings and normal forms -/

theorem foldl_leadFrom_names {pieces : List (List Char)}
    (h : ∀ piece ∈ pieces, isIdle piece = false ∧ piece ≠ ['.', '.']) (loc : Location) :
    (stepsOf pieces).foldl PathStep.leadFrom loc = loc ++ pieces.map String.ofList := by
  induction pieces generalizing loc with
  | nil => simp [stepsOf]
  | cons piece pieces ih =>
    simp only [List.mem_cons, forall_eq_or_imp] at h
    obtain ⟨⟨hidle, hup⟩, hrest⟩ := h
    have hne := ne_nil_of_not_idle hidle
    have hdot : piece ≠ ['.'] := by
      rintro rfl
      simp [isIdle] at hidle
    have hstep : stepsOf [piece] = [.into (.ofList piece)] := by
      simp [stepsOf, PathStep.ofPiece, hne, hdot, hup]
    rw [← List.singleton_append, stepsOf_append, hstep, List.singleton_append, List.foldl_cons,
      ih hrest, PathStep.leadFrom]
    simp

theorem landing_of_not_climbs (h : p.climbs = false) (cwd : Location) :
    p.landing cwd = p.origin cwd ++ p.segments.map String.ofList := by
  rw [landing_eq]
  refine foldl_leadFrom_names (fun piece hp => ⟨?_, ?_⟩) _
  · simpa using (List.mem_filter.mp hp).2
  · rintro rfl
    simp [climbs, hp] at h

/-- Paths of one kind without `..` have one landing only if they have one normal form. -/
theorem normalize_eq_of_landing_eq (hp : p.climbs = false) (hq : q.climbs = false)
    (habs : p.isAbsolute = q.isAbsolute) (h : p.landing cwd = q.landing cwd) :
    p.normalize = q.normalize := by
  rw [landing_of_not_climbs hp, landing_of_not_climbs hq, origin, origin, habs] at h
  have hmap := List.append_cancel_left h
  have hsegments : p.segments = q.segments :=
    (List.map_inj_right fun _ _ => String.ofList_injective).mp hmap
  rw [normalize, normalize, habs, hsegments]

end Path

theorem distinctTargets_go_notMem {seen targets : List Path} :
    ∀ p ∈ distinctTargets.go seen targets, p.normalize ∉ seen := by
  induction targets generalizing seen with
  | nil => simp [distinctTargets.go]
  | cons target rest ih =>
    intro p hp
    rw [distinctTargets.go] at hp
    split at hp
    · exact ih p hp
    · next hnew =>
      rcases List.mem_cons.mp hp with rfl | hp
      · simpa using hnew
      · exact fun hmem => ih p hp (List.mem_cons_of_mem _ hmem)

theorem distinctTargets_pairwise (targets : List Path) :
    (distinctTargets targets).Pairwise fun p q => p.normalize ≠ q.normalize := by
  unfold distinctTargets
  generalize ([] : List Path) = seen
  induction targets generalizing seen with
  | nil => exact List.Pairwise.nil
  | cons target rest ih =>
    rw [distinctTargets.go]
    split
    · exact ih seen
    · refine List.pairwise_cons.mpr ⟨fun p hp heq => ?_, ih _⟩
      exact distinctTargets_go_notMem p hp (heq ▸ List.mem_cons_self)

theorem mem_of_mem_distinctTargets {p : Path} {targets : List Path}
    (h : p ∈ distinctTargets targets) : p ∈ targets := by
  unfold distinctTargets at h
  generalize ([] : List Path) = seen at h
  induction targets generalizing seen with
  | nil => cases h
  | cons target rest ih =>
    rw [distinctTargets.go] at h
    split at h
    · exact List.mem_cons_of_mem _ (ih seen h)
    · rcases List.mem_cons.mp h with rfl | h
      · exact List.mem_cons_self
      · exact List.mem_cons_of_mem _ (ih _ h)

theorem exists_mem_distinctTargets {p : Path} {targets : List Path} (h : p ∈ targets) :
    ∃ q ∈ distinctTargets targets, q.normalize = p.normalize := by
  suffices hgo : ∀ seen, p.normalize ∈ seen ∨
      ∃ q ∈ distinctTargets.go seen targets, q.normalize = p.normalize by
    simpa [distinctTargets] using hgo []
  induction targets with
  | nil => cases h
  | cons target rest ih =>
    intro seen
    rw [distinctTargets.go]
    rcases List.mem_cons.mp h with rfl | h
    · split
      · next hseen => exact .inl (by simpa using hseen)
      · exact .inr ⟨p, List.mem_cons_self, rfl⟩
    · split
      · exact ih h seen
      · rcases ih h (target.normalize :: seen) with hmem | ⟨q, hq, hnormal⟩
        · rcases List.mem_cons.mp hmem with heq | hmem
          · exact .inr ⟨target, List.mem_cons_self, heq.symm⟩
          · exact .inl hmem
        · exact .inr ⟨q, List.mem_cons_of_mem _ hq, hnormal⟩

end Amend
