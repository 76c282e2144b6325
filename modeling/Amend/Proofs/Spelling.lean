import Amend.Proofs.FileTree.Stays

/-!
# Spellings of a path

Two paths have one normal form exactly if they are of one kind and have the same segments
(`normalize_eq_iff`). Read from a third path, they take the same steps but for those that stay
where they are (`alike_append`), so that they lead to the same place unless one of them alone asks
for a directory (`Alike.entryAt_eq`, `Alike.fileAt_eq_refuse`).
-/

set_option autoImplicit false

namespace Amend.Path

variable {p q : Path}

/-! ## Normal forms -/

theorem not_idle_of_mem_segments {piece : List Char} (h : piece ∈ p.segments) :
    isIdle piece = false := by
  simpa using (List.mem_filter.mp h).2

theorem slash_notMem_of_mem_segments {piece : List Char} (h : piece ∈ p.segments) :
    '/' ∉ piece :=
  slash_notMem_of_mem_split _ piece (List.mem_filter.mp h).1

theorem head?_join_segments (p : Path) : (join p.segments).head? ≠ some '/' := by
  cases hs : p.segments with
  | nil => simp [join]
  | cons piece pieces =>
    have hmem : piece ∈ p.segments := by rw [hs]; exact List.mem_cons_self
    obtain ⟨c, cs, rfl⟩ :=
      List.exists_cons_of_ne_nil (ne_nil_of_not_idle (not_idle_of_mem_segments hmem))
    have hc : c ≠ '/' := by
      rintro rfl
      exact slash_notMem_of_mem_segments hmem List.mem_cons_self
    cases pieces <;> simpa [join] using hc

/-- The segments of a path can be read off what they are when joined. -/
theorem filter_split_join (p : Path) :
    (split (join p.segments)).filter (!isIdle ·) = p.segments := by
  by_cases hnil : p.segments = []
  · rw [hnil]
    rfl
  · rw [split_join hnil fun _ => slash_notMem_of_mem_segments]
    refine List.filter_eq_self.mpr fun piece hp => ?_
    rw [not_idle_of_mem_segments hp]
    rfl

theorem segments_eq_of_join (h : join p.segments = join q.segments) : p.segments = q.segments := by
  rw [← filter_split_join p, ← filter_split_join q, h]

theorem normalize_eq_iff :
    p.normalize = q.normalize ↔ p.isAbsolute = q.isAbsolute ∧ p.segments = q.segments := by
  constructor
  · intro h
    have h := String.ofList_injective (Path.mk.inj h)
    have hp := head?_join_segments p
    have hq := head?_join_segments q
    cases ha : p.isAbsolute <;> cases hb : q.isAbsolute <;>
      simp only [ha, hb, if_true, if_false, Bool.false_eq_true] at h
    · exact ⟨rfl, segments_eq_of_join h⟩
    · rw [h] at hp
      exact absurd rfl hp
    · rw [← h] at hq
      exact absurd rfl hq
    · exact ⟨rfl, segments_eq_of_join (List.cons.inj h).2⟩
  · rintro ⟨ha, hs⟩
    rw [normalize, normalize, ha, hs]

theorem isAbsolute_normalize (p : Path) : p.normalize.isAbsolute = p.isAbsolute := by
  unfold normalize ofSegments
  cases habs : p.isAbsolute with
  | true => simp [isAbsolute]
  | false => simpa [isAbsolute] using head?_join_segments p

theorem segments_normalize (p : Path) : p.normalize.segments = p.segments := by
  have hjoin := filter_split_join p
  unfold normalize ofSegments
  cases p.isAbsolute with
  | true =>
    rw [if_pos rfl, segments, String.toList_ofList, split, if_pos rfl, List.filter_cons_of_neg]
    · exact hjoin
    · simp [isIdle]
  | false =>
    rw [if_neg Bool.false_ne_true, segments, String.toList_ofList]
    exact hjoin

@[simp]
theorem normalize_normalize (p : Path) : p.normalize.normalize = p.normalize :=
  normalize_eq_iff.mpr ⟨isAbsolute_normalize p, segments_normalize p⟩

/-! ## Steps that lead somewhere -/

/-- The steps of the path that lead somewhere. -/
def strides (p : Path) : List PathStep :=
  PathStep.strides p.steps

/-- Whether the path ends in a step that stays, and so can only name a directory. -/
def asksDirectory (p : Path) : Bool :=
  p.steps.getLast? == some .stay

theorem exists_stride {piece : List Char} (h : isIdle piece = false) :
    ∃ step, stepsOf [piece] = [step] ∧ step ≠ .stay := by
  have hdot : piece ≠ ['.'] := by
    rintro rfl
    simp [isIdle] at h
  unfold stepsOf
  rw [List.filterMap_cons, PathStep.ofPiece,
    if_neg (by simpa using ne_nil_of_not_idle h), if_neg hdot]
  by_cases hup : piece = ['.', '.']
  · rw [if_pos hup]
    exact ⟨.up, rfl, by simp⟩
  · rw [if_neg hup]
    exact ⟨.into (.ofList piece), rfl, by simp⟩

theorem strides_stepsOf (pieces : List (List Char)) :
    PathStep.strides (stepsOf pieces) = stepsOf (pieces.filter (!isIdle ·)) := by
  induction pieces with
  | nil => rfl
  | cons piece pieces ih =>
    rw [← List.singleton_append, stepsOf_append, List.filter_append, stepsOf_append, ← ih,
      PathStep.strides, List.filter_append]
    refine congrArg (· ++ _) ?_
    by_cases hidle : isIdle piece = true
    · rcases (by simpa [isIdle] using hidle : piece = [] ∨ piece = ['.']) with rfl | rfl <;> rfl
    · rw [Bool.not_eq_true] at hidle
      obtain ⟨step, hstep, hstay⟩ := exists_stride hidle
      simp [hidle, hstep, hstay]

theorem strides_eq (p : Path) : p.strides = stepsOf p.segments := by
  rw [segments, ← strides_stepsOf, ← innerSteps_eq, strides, steps]
  split
  · simp [PathStep.strides]
  · rfl

/-! ## Paths that lead alike -/

/-- Two paths that start at the same place and take the same steps, but for those that stay where
they are. -/
structure Alike (p q : Path) : Prop where
  isAbsolute : p.isAbsolute = q.isAbsolute
  segments : p.segments = q.segments

theorem Alike.symm (h : Alike p q) : Alike q p :=
  ⟨h.isAbsolute.symm, h.segments.symm⟩

theorem Alike.strides (h : Alike p q) : p.strides = q.strides := by
  rw [strides_eq, strides_eq, h.segments]

theorem Alike.origin (h : Alike p q) (cwd : Location) : p.origin cwd = q.origin cwd := by
  rw [Path.origin, Path.origin, h.isAbsolute]

/-- Spellings of one target lead alike, wherever they are read from. -/
theorem alike_append (h : p.normalize = q.normalize) (base : Path) :
    Alike (base ++ p) (base ++ q) := by
  obtain ⟨habs, hsegments⟩ := normalize_eq_iff.mp h
  refine ⟨?_, ?_⟩
  · rw [isAbsolute_append, isAbsolute_append, habs]
  · rw [segments_append, segments_append, habs, hsegments]

/-- Both paths or neither of them is empty, and too long. -/
structure SameLimits (p q : Path) : Prop where
  empty : p.text.toList = [] ↔ q.text.toList = []
  long : lengthLimit < p.text.utf8ByteSize ↔ lengthLimit < q.text.utf8ByteSize

theorem SameLimits.symm (h : SameLimits p q) : SameLimits q p :=
  ⟨h.empty.symm, h.long.symm⟩

theorem mem_join {c : Char} (hc : c ≠ '/') {pieces : List (List Char)} :
    c ∈ join pieces ↔ ∃ piece ∈ pieces, c ∈ piece := by
  induction pieces with
  | nil => simp [join]
  | cons piece pieces ih =>
    cases pieces with
    | nil => simp [join]
    | cons next pieces =>
      rw [join_cons (List.cons_ne_nil next pieces)]
      simp [hc, ih]

/-- The characters of a path are those of its segments, besides slashes and dots. -/
theorem mem_text_iff {c : Char} (hslash : c ≠ '/') (hdot : c ≠ '.') :
    c ∈ p.text.toList ↔ ∃ piece ∈ p.segments, c ∈ piece := by
  rw [← join_split p.text.toList, mem_join hslash]
  constructor
  · rintro ⟨piece, hp, hc⟩
    refine ⟨piece, List.mem_filter.mpr ⟨hp, ?_⟩, hc⟩
    by_cases hidle : isIdle piece = true
    · rcases (by simpa [isIdle] using hidle : piece = [] ∨ piece = ['.']) with rfl | rfl
      · cases hc
      · exact absurd (List.mem_singleton.mp hc) hdot
    · simpa using hidle
  · rintro ⟨piece, hp, hc⟩
    exact ⟨piece, (List.mem_filter.mp hp).1, hc⟩

theorem Alike.fault?_eq (h : Alike p q) (hl : SameLimits p q) : p.fault? = q.fault? := by
  have hnul : '\x00' ∈ p.text.toList ↔ '\x00' ∈ q.text.toList := by
    rw [mem_text_iff (by decide) (by decide), mem_text_iff (by decide) (by decide), h.segments]
  unfold fault?
  simp only [List.contains_iff_mem, String.isEmpty_iff, ← String.toList_eq_nil_iff, hnul, hl.empty,
    hl.long]

theorem tidy_steps (p : Path) :
    PathStep.tidy p.steps = p.strides ++ if p.asksDirectory then [.stay] else [] := by
  simp [PathStep.tidy, strides, asksDirectory]

/-! ## Where alike paths lead -/

section
variable {t : FileTree} {cwd : Location}

open FileTree

theorem Alike.follow_eq (h : Alike p q) (hf : p.fault? = q.fault?)
    (hd : p.asksDirectory = q.asksDirectory) : t.follow cwd p = t.follow cwd q := by
  cases hfault : q.fault? with
  | some e =>
    unfold follow
    rw [hf, hfault]
  | none =>
    rw [FileTree.follow_eq (hf.trans hfault), FileTree.follow_eq hfault, stage, stage,
      ← ending_tidy, tidy_steps, h.origin, h.strides, hd, ← tidy_steps, ending_tidy]

/-- A path that asks for a directory leads where another one does that is like it, if a directory
is there. -/
theorem Alike.follow_eq_asDirectory (cwd : Location) (hw : t.WellFormed) (h : Alike p q)
    (hf : p.fault? = q.fault?) (hp : p.asksDirectory = true) (hq : q.asksDirectory = false) :
    t.follow cwd p = asDirectory (t.follow cwd q) := by
  cases hfault : q.fault? with
  | some e =>
    unfold follow
    rw [hf, hfault]
    rfl
  | none =>
    have htidy : PathStep.tidy q.steps = q.strides := by
      rw [tidy_steps, hq, if_neg Bool.false_ne_true, List.append_nil]
    have hne : q.strides ≠ [] :=
      htidy ▸ tidy_ne_nil (steps_ne_nil (fault?_eq_none.mp hfault).2.1)
    rw [FileTree.follow_eq (hf.trans hfault), FileTree.follow_eq hfault, stage, stage,
      ← ending_tidy, tidy_steps, hp, if_pos rfl, h.origin, h.strides,
      ← ending_tidy t linkLimit _ q.steps, htidy]
    exact ending_append_stay (a := ⟨linkLimit, q.origin cwd, q.strides⟩) hw (.inl hne)

theorem Alike.entryAt_eq (h : Alike p q) (hf : p.fault? = q.fault?)
    (hd : p.asksDirectory = q.asksDirectory) : t.entryAt cwd p = t.entryAt cwd q := by
  unfold entryAt
  rw [h.follow_eq hf hd]

/-- A path that asks for a directory turns away the file that another one leads to. -/
theorem Alike.fileAt_eq_refuse (cwd : Location) (hw : t.WellFormed) (h : Alike p q)
    (hf : p.fault? = q.fault?) (hp : p.asksDirectory = true) (hq : q.asksDirectory = false) :
    t.fileAt cwd p =
      match t.fileAt cwd q with
      | .ok _ => .error .notADirectory
      | .error e => .error e := by
  have hfollow := h.follow_eq_asDirectory cwd hw hf hp hq
  have hlink := entryAt_ne_link hw cwd q
  unfold fileAt entryAt at *
  rw [hfollow]
  cases hd : t.follow cwd q with
  | error e => rfl
  | ok destination =>
    cases destination with
    | free dir name => rfl
    | entry loc e =>
      cases e with
      | file d => rfl
      | dir isSealed => rfl
      | link target =>
        rw [hd] at hlink
        exact absurd rfl (hlink loc target)

end

end Amend.Path
