import Amend.Proofs.FileTree.Interruption
import Amend.Proofs.Run.AllOrNothing
import Amend.Proofs.Spelling

/-!
# Targets under other spellings

Targets are told apart by their normal forms, but a file is opened by the spelling that was given.
Two spellings of one normal form read the same unless one of them is foiled: it asks for a directory
where the other one leads to a text, or it is no path that can be followed (`Foiled`). Spellings
that read the same are rewritten in the same way (`sameReading_iff_of_normalize_eq`).
-/

set_option autoImplicit false

namespace Amend

open FileTree StagedWrite

variable {t t' : FileTree} {cwd dir F : Location} {base p q : Path} {name : String}
  {old : FileData} {faults : Faults}

/-! ## Sites of alike paths -/

namespace Path

theorem endsInSlash_of_not_asksDirectory (h : p.asksDirectory = false) : p.endsInSlash = false := by
  rw [← Bool.not_eq_true]
  intro hs
  simp [asksDirectory, steps, hs] at h

/-- A path ends in a step that leads somewhere, unless it asks for a directory. -/
theorem exists_last_stride (hf : p.fault? = none) (h : p.asksDirectory = false) :
    ∃ init last, p.innerSteps = init ++ [last] ∧
      p.strides = PathStep.strides init ++ [last] := by
  have hsteps : p.steps = p.innerSteps := by
    rw [steps, endsInSlash_of_not_asksDirectory h]
    rfl
  have hne : p.steps ≠ [] := steps_ne_nil (fault?_eq_none.mp hf).2.1
  have hlast := (List.dropLast_concat_getLast hne).symm
  generalize p.steps.dropLast = init, p.steps.getLast hne = last at hlast
  have hstay : last ≠ .stay := by
    rintro rfl
    simp [asksDirectory, hlast] at h
  refine ⟨init, last, hsteps ▸ hlast, ?_⟩
  rw [strides, hlast]
  simp [PathStep.strides, hstay]

/-- A path that is like one with a slot has the same slot, if it asks for no directory. -/
theorem Alike.slot (h : Alike p q) (hp : p.asksDirectory = false) (hq : q.asksDirectory = false)
    (hf : q.fault? = none) (hs : Slot t cwd p dir name) : Slot t cwd q dir name := by
  obtain ⟨init, last, hinit, hstrides⟩ := exists_last_stride hs.fault hp
  obtain ⟨init', last', hinit', hstrides'⟩ := exists_last_stride hf hq
  rw [h.strides, hstrides'] at hstrides
  obtain ⟨hbefore, hsame⟩ := List.append_inj' hstrides rfl
  obtain rfl : last' = last := (List.cons.inj hsame).1
  obtain ⟨s, hs'⟩ := hs.isDir
  have hlast := hs.last
  have hreaches := hs.reaches
  rw [hinit] at hlast hreaches
  rw [List.getLast?_concat] at hlast
  rw [List.dropLast_concat] at hreaches
  have hend : t.ending ⟨linkLimit, p.origin cwd, init⟩ = .ok (.entry dir (.dir s)) :=
    ending_eq_entry.mpr ⟨hs', hreaches⟩
  rw [h.origin, ← ending_strides_eq_dir, ← hbefore, ending_strides_eq_dir] at hend
  refine ⟨hf, endsInSlash_of_not_asksDirectory hq, ?_, hs.name_le, hs.isDir, ?_⟩
  · rw [hinit', List.getLast?_concat, hlast]
  · rw [hinit', List.dropLast_concat]
    exact (ending_eq_entry.mp hend).2

/-- Of a path that leads to a file, a well-formed tree says that it asks for no directory. -/
theorem not_asksDirectory_of_file (hw : t.WellFormed) (h : t.entryAt cwd p = .ok (F, .file old)) :
    p.asksDirectory = false := by
  obtain ⟨dir, name, hsite⟩ := exists_site hw h
  rw [asksDirectory, hsite.slot.steps_eq]
  simp

/-- Writes under two alike paths to a file succeed or fail together, where temporary files can have
their paths under both or under neither. -/
theorem Alike.writeAtomic_congr (hw : t.WellFormed) (h : Alike p q) (hf : p.fault? = q.fault?)
    (hd : p.asksDirectory = q.asksDirectory)
    (htemp : tempFault? cwd p = none ↔ tempFault? cwd q = none)
    (hp : t.entryAt cwd p = .ok (F, .file old)) (faults : Faults) (contents : String) :
    (writeAtomic faults t cwd p contents).1 = (writeAtomic faults t cwd q contents).1 ∧
      (writeAtomic faults t cwd p contents).2.isOk =
        (writeAtomic faults t cwd q contents).2.isOk := by
  obtain ⟨dir, name, hsite⟩ := exists_site hw hp
  have hpd := not_asksDirectory_of_file hw hp
  have hqd := hd.symm.trans hpd
  have hsite' : Site t cwd q dir name F old :=
    ⟨h.entryAt_eq hf hd ▸ hp, h.slot hpd hqd (hf.symm.trans hsite.slot.fault) hsite.slot,
      hsite.stood⟩
  obtain ⟨s, hs⟩ := hsite.slot.isDir
  have hnone := firstFault_eq_none_iff faults htemp s (freshName t dir)
  rw [hsite.writeAtomic_eq hs, hsite'.writeAtomic_eq hs]
  cases hfp : firstFault faults cwd p s (freshName t dir) with
  | none =>
    rw [hnone.mp hfp]
    exact ⟨rfl, rfl⟩
  | some e =>
    cases hfq : firstFault faults cwd q s (freshName t dir) with
    | none =>
      rw [hnone.mpr hfq] at hfp
      cases hfp
    | some e' => exact ⟨rfl, rfl⟩

end Path

/-! ## Readings -/

/-- Two readings give the same text or fail in the same way. -/
def SameReading (r r' : Except Failure String) : Prop :=
  r.mapError OutcomeStatus.ofFailure = r'.mapError OutcomeStatus.ofFailure

/-- How a fault of reading is reported. -/
def FileError.readStatus : FileError → OutcomeStatus
  | .notFound => .notFound
  | _ => .readFailed

/-- The path comes to nothing where the other one may come to something: it alone is empty, or too
long for the text or the missing file that the other one leads to, or asks for a directory where
there is a text. -/
inductive Foiled (t : FileTree) (cwd : Location) (p q : Path) : Prop
  | empty : p.text.toList = [] → q.text.toList ≠ [] → Foiled t cwd p q
  | long : Path.lengthLimit < p.text.utf8ByteSize → q.text.utf8ByteSize ≤ Path.lengthLimit →
      ((∃ text, t.readText cwd q = .ok text) ∨ t.readText cwd q = .error .notFound) →
      Foiled t cwd p q
  | asks : p.asksDirectory = true → q.asksDirectory = false →
      (∃ text, t.readText cwd q = .ok text) → Foiled t cwd p q

theorem sameReading_comm {r r' : Except Failure String} : SameReading r r' ↔ SameReading r' r :=
  eq_comm

theorem not_foiled (hl : p.SameLimits q) (hd : p.asksDirectory = q.asksDirectory) :
    ¬ Foiled t cwd p q := by
  rintro (⟨hp, hq⟩ | ⟨hp, hq, -⟩ | ⟨hp, hq, -⟩)
  · exact hq (hl.empty.mp hp)
  · exact Nat.not_lt.mpr hq (hl.long.mp hp)
  · rw [hp, hq] at hd
    cases hd

theorem mapError_readSource (t : FileTree) (cwd : Location) (p : Path) :
    (readSource noFaults t cwd p).mapError OutcomeStatus.ofFailure =
      (t.readText cwd p).mapError FileError.readStatus := by
  unfold readSource noFaults
  cases t.readText cwd p with
  | ok text => rfl
  | error e => cases e <;> rfl

theorem SameReading.readText_eq {text : String}
    (h : SameReading (readSource noFaults t cwd p) (readSource noFaults t cwd q))
    (hp : t.readText cwd p = .ok text) : t.readText cwd q = .ok text := by
  rw [SameReading, mapError_readSource, mapError_readSource, hp] at h
  cases hq : t.readText cwd q with
  | ok text' =>
    rw [hq] at h
    cases h
    rfl
  | error e =>
    rw [hq] at h
    cases h

theorem readText_of_fault {e : FileError} (h : p.fault? = some e) :
    t.readText cwd p = .error e := by
  unfold readText fileAt entryAt follow
  rw [h]

theorem Path.fault?_of_empty (h : p.text.toList = []) : p.fault? = some .notFound := by
  unfold fault?
  simp [h, String.isEmpty_iff, ← String.toList_eq_nil_iff]

theorem Path.fault?_of_long (h : lengthLimit < p.text.utf8ByteSize) :
    p.fault? = some (if '\x00' ∈ p.text.toList then .nulInPath else .nameTooLong) := by
  have hne : p.text ≠ "" := by
    rintro hnil
    simp [hnil, lengthLimit] at h
  unfold fault?
  simp only [List.contains_iff_mem, String.isEmpty_iff, hne, h, if_true, if_false]
  split <;> rfl

/-- A path of steps that stay leads to a directory at best. -/
theorem readText_of_stays (hs : p.segments = []) (hne : p.text.toList ≠ []) :
    (t.readText cwd p).mapError FileError.readStatus = .error .readFailed := by
  cases hf : p.fault? with
  | some e =>
    rw [readText_of_fault hf]
    unfold Path.fault? at hf
    rw [if_neg (c := p.text.isEmpty) (by simpa using hne)] at hf
    split at hf
    · cases hf
      rfl
    · split at hf <;> cases hf
      rfl
  | none =>
    have htidy := tidy_ne_nil (Path.steps_ne_nil hne)
    have hstrides : p.strides = [] := by
      rw [Path.strides_eq, hs]
      rfl
    have hfollow : t.follow cwd p = t.ending ⟨linkLimit, p.origin cwd, [.stay]⟩ := by
      rw [follow_eq hf, Path.stage, ← ending_tidy]
      rw [Path.tidy_steps, hstrides] at htidy ⊢
      split at htidy
      · next hasks => rw [if_pos hasks, List.nil_append]
      · exact absurd rfl htidy
    unfold readText fileAt entryAt
    rw [hfollow]
    by_cases hd : ∃ isSealed, t.get? (p.origin cwd) = some (.dir isSealed)
    · obtain ⟨isSealed, hd⟩ := hd
      rw [(Moves.stay hd).ending_eq, (Halts.found hd).ending_eq]
      rfl
    · rw [(Halts.noDirectory (not_exists.mp hd)).ending_eq]
      rfl

theorem sameReading_iff_of_long (hp : Path.lengthLimit < p.text.utf8ByteSize)
    (hq : q.text.utf8ByteSize ≤ Path.lengthLimit)
    (hempty : p.text.toList = [] ↔ q.text.toList = []) :
    SameReading (readSource noFaults t cwd p) (readSource noFaults t cwd q) ↔
      ¬ Foiled t cwd p q ∧ ¬ Foiled t cwd q p := by
  have hread : (t.readText cwd p).mapError FileError.readStatus = .error .readFailed := by
    rw [readText_of_fault (Path.fault?_of_long hp)]
    split <;> rfl
  have hother : ¬ Foiled t cwd q p := by
    rintro (⟨hqe, hpe⟩ | ⟨hlong, -⟩ | ⟨-, -, text, htext⟩)
    · exact hpe (hempty.mpr hqe)
    · exact Nat.not_lt.mpr hq hlong
    · rw [htext] at hread
      cases hread
  rw [SameReading, mapError_readSource, mapError_readSource, hread, and_iff_left hother]
  constructor
  · rintro hsame (⟨hpe, hqe⟩ | ⟨-, -, ⟨text, htext⟩ | hmissing⟩ | ⟨-, -, text, htext⟩)
    · exact hqe (hempty.mp hpe)
    · rw [htext] at hsame
      cases hsame
    · rw [hmissing] at hsame
      cases hsame
    · rw [htext] at hsame
      cases hsame
  · intro hno
    cases hq' : t.readText cwd q with
    | ok text => exact absurd (.long hp hq (.inl ⟨text, hq'⟩)) hno
    | error e =>
      cases e with
      | notFound => exact absurd (.long hp hq (.inr hq')) hno
      | _ => rfl

namespace Path.Alike

/-- An empty path leads nowhere, but `.` leads to a directory. -/
theorem sameReading_iff_of_empty (h : p.Alike q) (hp : p.text.toList = [])
    (hq : q.text.toList ≠ []) :
    SameReading (readSource noFaults t cwd p) (readSource noFaults t cwd q) ↔
      ¬ Foiled t cwd p q ∧ ¬ Foiled t cwd q p := by
  have hsegments : q.segments = [] := by
    rw [← h.segments, Path.segments, hp]
    rfl
  rw [SameReading, mapError_readSource, mapError_readSource, readText_of_fault (fault?_of_empty hp),
    readText_of_stays hsegments hq]
  refine ⟨fun h => ?_, fun hno => absurd (.empty hp hq) hno.1⟩
  cases h

/-- A path that asks for a directory is turned away from a text, and from nothing else that the
other path leads to. -/
theorem sameReading_iff_of_asks (hw : t.WellFormed) (h : p.Alike q) (hl : SameLimits p q)
    (hp : p.asksDirectory = true) (hq : q.asksDirectory = false) :
    SameReading (readSource noFaults t cwd p) (readSource noFaults t cwd q) ↔
      ¬ Foiled t cwd p q ∧ ¬ Foiled t cwd q p := by
  have hfile := h.fileAt_eq_refuse cwd hw (h.fault?_eq hl) hp hq
  have hother : ¬ Foiled t cwd q p := by
    rintro (⟨hqe, hpe⟩ | ⟨hlong, hle, -⟩ | ⟨hqd, -⟩)
    · exact hpe (hl.empty.mpr hqe)
    · exact Nat.not_lt.mpr hle (hl.long.mpr hlong)
    · rw [hq] at hqd
      cases hqd
  have hfoiled : Foiled t cwd p q ↔ ∃ text, t.readText cwd q = .ok text := by
    refine ⟨?_, .asks hp hq⟩
    rintro (⟨hpe, hqe⟩ | ⟨hlong, hle, -⟩ | ⟨-, -, htext⟩)
    · exact absurd (hl.empty.mp hpe) hqe
    · exact absurd (hl.long.mp hlong) (Nat.not_lt.mpr hle)
    · exact htext
  rw [and_iff_left hother, hfoiled, SameReading, mapError_readSource, mapError_readSource]
  unfold readText
  rw [hfile]
  cases t.fileAt cwd q with
  | error e => simp
  | ok d =>
    dsimp only
    cases d.text? with
    | none =>
      refine iff_of_true rfl ?_
      rintro ⟨text, htext⟩
      cases htext
    | some text =>
      refine iff_of_false (fun h => ?_) fun h => h ⟨text, rfl⟩
      cases h

theorem readText_eq (h : p.Alike q) (hf : p.fault? = q.fault?)
    (hd : p.asksDirectory = q.asksDirectory) : t.readText cwd p = t.readText cwd q := by
  unfold readText fileAt
  rw [h.entryAt_eq hf hd]

/-- Alike paths read the same unless one of them is foiled. -/
theorem sameReading_iff (hw : t.WellFormed) (h : p.Alike q) :
    SameReading (readSource noFaults t cwd p) (readSource noFaults t cwd q) ↔
      ¬ Foiled t cwd p q ∧ ¬ Foiled t cwd q p := by
  by_cases hempty : p.text.toList = [] ↔ q.text.toList = []
  · by_cases hlong : lengthLimit < p.text.utf8ByteSize ↔ lengthLimit < q.text.utf8ByteSize
    · have hl : SameLimits p q := ⟨hempty, hlong⟩
      by_cases hd : p.asksDirectory = q.asksDirectory
      · rw [SameReading, mapError_readSource, mapError_readSource,
          h.readText_eq (h.fault?_eq hl) hd]
        exact iff_of_true rfl ⟨not_foiled hl hd, not_foiled hl.symm hd.symm⟩
      · cases hp : p.asksDirectory with
        | true => exact h.sameReading_iff_of_asks hw hl hp (by simpa [hp] using hd)
        | false =>
          rw [sameReading_comm, and_comm]
          exact h.symm.sameReading_iff_of_asks hw hl.symm (by simpa [hp] using hd) hp
    · by_cases hp : lengthLimit < p.text.utf8ByteSize
      · exact sameReading_iff_of_long hp (Nat.not_lt.mp fun hq => hlong (iff_of_true hp hq)) hempty
      · rw [sameReading_comm, and_comm]
        refine sameReading_iff_of_long ?_ (Nat.not_lt.mp hp) hempty.symm
        exact Classical.not_not.mp fun hq => hlong (iff_of_false hp hq)
  · by_cases hp : p.text.toList = []
    · exact h.sameReading_iff_of_empty hp fun hq => hempty (iff_of_true hp hq)
    · rw [sameReading_comm, and_comm]
      refine h.symm.sameReading_iff_of_empty ?_ hp
      exact Classical.not_not.mp fun hq => hempty (iff_of_false hp hq)

end Path.Alike

theorem readSource_of_foiled (hw : t.WellFormed) (hfoiled : Foiled t cwd p q) :
    ∃ f, readSource noFaults t cwd p = .error f := by
  suffices hread : ∀ text, t.readText cwd p ≠ .ok text by
    cases hr : readSource noFaults t cwd p with
    | ok text => exact absurd (readSource_eq_ok hr) (hread text)
    | error f => exact ⟨f, rfl⟩
  intro text hp
  obtain ⟨F, d, hF, -⟩ := exists_entryAt_of_readText hp
  have hfault := (entryAt_eq_ok.mp hF).1
  cases hfoiled with
  | empty hpe => exact absurd (Path.fault?_of_empty hpe) (by simp [hfault])
  | long hlong => exact absurd (Path.fault?_of_long hlong) (by simp [hfault])
  | asks hpd => exact absurd hpd (by simp [Path.not_asksDirectory_of_file hw hF])

/-! ## Rewriting -/

/-- Nothing but the spelling of the target tells two outcomes apart. -/
structure SameOutcome (o o' : Outcome) : Prop where
  status : o.status = o'.status
  success : o.success = o'.success
  applied : o.applied = o'.applied
  replacements : o.replacements = o'.replacements
  error : o.error.isSome = o'.error.isSome

theorem SameReading.cases {r r' : Except Failure String} (h : SameReading r r') :
    (∃ text, r = .ok text ∧ r' = .ok text) ∨
      ∃ f f', r = .error f ∧ r' = .error f' ∧
        OutcomeStatus.ofFailure f = OutcomeStatus.ofFailure f' := by
  cases r with
  | ok text =>
    cases r' with
    | ok text' => exact .inl ⟨text, rfl, congrArg Except.ok (Except.ok.inj h).symm⟩
    | error f => cases h
  | error f =>
    cases r' with
    | ok text => cases h
    | error f' => exact .inr ⟨f, f', rfl, rfl, Except.error.inj h⟩

theorem SameReading.withFaults (faults : Faults)
    (h : SameReading (readSource noFaults t cwd p) (readSource noFaults t cwd q)) :
    SameReading (readSource faults t cwd p) (readSource faults t cwd q) := by
  cases hfault : faults .read with
  | some e =>
    unfold readSource
    rw [hfault]
    cases e <;> rfl
  | none =>
    unfold readSource noFaults at *
    rwa [hfault]

/-- Two targets that read the same and are written to in the same way are rewritten alike. -/
theorem rewriteFile_congr {set set' : RuleSet} (hset : set.rules = set'.rules) (mode : WriteMode)
    (hr : SameReading (readSource faults t cwd (base ++ p)) (readSource faults t cwd (base ++ q)))
    (hwrite : mode = .inPlace → ∀ text, readSource faults t cwd (base ++ p) = .ok text →
      ∀ contents,
        (writeAtomic faults t cwd (base ++ p) contents).1 =
          (writeAtomic faults t cwd (base ++ q) contents).1 ∧
        (writeAtomic faults t cwd (base ++ p) contents).2.isOk =
          (writeAtomic faults t cwd (base ++ q) contents).2.isOk) :
    (rewriteFile faults t cwd base mode p set).1 = (rewriteFile faults t cwd base mode q set').1 ∧
      SameOutcome (rewriteFile faults t cwd base mode p set).2
        (rewriteFile faults t cwd base mode q set').2 := by
  unfold rewriteFile planFile
  rcases hr.cases with ⟨text, hp, hq⟩ | ⟨f, f', hp, hq, hstatus⟩
  · rw [hp, hq, ← hset]
    dsimp only
    by_cases hsame : (Rule.applyAll set.rules text.toList).text = text.toList
    · rw [if_pos hsame, if_pos hsame]
      exact ⟨rfl, rfl, rfl, rfl, rfl, rfl⟩
    rw [if_neg hsame, if_neg hsame]
    cases mode with
    | dryRun => exact ⟨rfl, rfl, rfl, rfl, rfl, rfl⟩
    | inPlace =>
      have hboth := hwrite rfl text hp
        (.ofList (Rule.applyAll set.rules text.toList).text)
      dsimp only
      unfold writeSource
      generalize writeAtomic faults t cwd (base ++ p) _ = written at hboth ⊢
      generalize writeAtomic faults t cwd (base ++ q) _ = written' at hboth ⊢
      obtain ⟨t', result⟩ := written
      obtain ⟨t'', result'⟩ := written'
      obtain ⟨htree, hok⟩ := hboth
      obtain rfl : t' = t'' := htree
      cases result <;> cases result'
      · exact ⟨rfl, rfl, rfl, rfl, rfl, rfl⟩
      · cases hok
      · cases hok
      · exact ⟨rfl, rfl, rfl, rfl, rfl, rfl⟩
  · rw [hp, hq]
    exact ⟨rfl, hstatus, rfl, rfl, rfl, rfl⟩

theorem rules_setFor_congr (c : Catalog) (h : p.normalize = q.normalize) :
    (c.setFor p).rules = (c.setFor q).rules := by
  unfold Catalog.setFor Catalog.get?
  rw [h]
  cases c.sets.find? fun set => set.file.normalize = q.normalize <;> rfl

/-- A target whose temporary file cannot be created is never rewritten. If there is a new text to
write, this is what is reported. -/
theorem rewriteFile_of_tempFault {set : RuleSet} (h : tempFault? cwd (base ++ p) ≠ none)
    (faults : Faults) (mode : WriteMode) :
    (rewriteFile faults t cwd base mode p set).1 = t ∧
      (rewriteFile faults t cwd base mode p set).2.status ≠ .rewritten ∧
      ∀ result, planFile faults t cwd base mode p set = .write result →
        (rewriteFile faults t cwd base mode p set).2.status = .writeFailed := by
  unfold rewriteFile
  cases hplan : planFile faults t cwd base mode p set with
  | settled o =>
    refine ⟨rfl, fun hstatus => ?_, nofun⟩
    have hsettled := planFile_settled hplan
    rw [hstatus] at hsettled
    simp at hsettled
  | write result =>
    obtain ⟨e, he⟩ : ∃ e, writeAtomic faults t cwd (base ++ p) (.ofList result.text) =
        (t, .error e) := writeAtomic_of_tempFault h _
    dsimp only
    rw [writeSource, he]
    exact ⟨rfl, nofun, fun _ _ => rfl⟩

/-- Two spellings of one normal form have the same rules. They read the same unless one of them is
foiled, which then reads nothing. If they read the same, what is read is also rewritten in the same
way, whichever operation fails, unless the temporary file of one of them alone has a path that
cannot be followed: that one is left alone. -/
theorem sameReading_iff_of_normalize_eq (c : Catalog) (cwd : Location) (base : Path)
    (hw : t.WellFormed) (hn : p.normalize = q.normalize) :
    (c.setFor p).rules = (c.setFor q).rules ∧
    (SameReading (readSource noFaults t cwd (base ++ p)) (readSource noFaults t cwd (base ++ q)) ↔
      ¬ Foiled t cwd (base ++ p) (base ++ q) ∧ ¬ Foiled t cwd (base ++ q) (base ++ p)) ∧
    (Foiled t cwd (base ++ p) (base ++ q) →
      ∃ f, readSource noFaults t cwd (base ++ p) = .error f) ∧
    (SameReading (readSource noFaults t cwd (base ++ p)) (readSource noFaults t cwd (base ++ q)) →
      ∀ faults mode, (mode = .inPlace →
          (tempFault? cwd (base ++ p) = none ↔ tempFault? cwd (base ++ q) = none)) →
        (rewriteFile faults t cwd base mode p (c.setFor p)).1 =
          (rewriteFile faults t cwd base mode q (c.setFor q)).1 ∧
        SameOutcome (rewriteFile faults t cwd base mode p (c.setFor p)).2
          (rewriteFile faults t cwd base mode q (c.setFor q)).2) ∧
    (tempFault? cwd (base ++ p) ≠ none → ∀ faults mode,
      (rewriteFile faults t cwd base mode p (c.setFor p)).1 = t ∧
      (rewriteFile faults t cwd base mode p (c.setFor p)).2.status ≠ .rewritten ∧
      ∀ result, planFile faults t cwd base mode p (c.setFor p) = .write result →
        (rewriteFile faults t cwd base mode p (c.setFor p)).2.status = .writeFailed) := by
  have halike := Path.alike_append hn base
  refine ⟨rules_setFor_congr c hn, halike.sameReading_iff hw, readSource_of_foiled hw,
    fun hsame faults mode htemp => ?_, rewriteFile_of_tempFault⟩
  refine rewriteFile_congr (rules_setFor_congr c hn) mode (hsame.withFaults faults) ?_
  intro hmode text htext
  have hread := readSource_eq_ok htext
  -- both lead to a file, so neither path is at fault or asks for a directory
  obtain ⟨d, hd, -⟩ := readText_eq_ok.mp hread
  obtain ⟨F, hF⟩ := fileAt_eq_ok.mp hd
  obtain ⟨d', hd', -⟩ := readText_eq_ok.mp (hsame.readText_eq hread)
  obtain ⟨F', hF'⟩ := fileAt_eq_ok.mp hd'
  exact halike.writeAtomic_congr hw
    ((entryAt_eq_ok.mp hF).1.trans (entryAt_eq_ok.mp hF').1.symm)
    ((Path.not_asksDirectory_of_file hw hF).trans (Path.not_asksDirectory_of_file hw hF').symm)
    (htemp hmode) hF faults

/-- A directory with a file. -/
def oneSource : FileTree :=
  ⟨[(["src"], .dir false), (["src", "a.rs"], .file ⟨"x".toUTF8, 0o644, none⟩)]⟩

/-- With a slash at its end a target cannot be read, but it is kept in the place of the one that
can. -/
theorem slash_not_sameReading :
    distinctTargets [⟨"src/a.rs/"⟩, ⟨"src/a.rs"⟩] = [⟨"src/a.rs/"⟩] ∧
    ¬ SameReading (readSource noFaults oneSource [] ((⟨"."⟩ : Path) ++ (⟨"src/a.rs/"⟩ : Path)))
      (readSource noFaults oneSource [] ((⟨"."⟩ : Path) ++ (⟨"src/a.rs"⟩ : Path))) := by
  have hread : oneSource.readText [] ((⟨"."⟩ : Path) ++ (⟨"src/a.rs"⟩ : Path)) = .ok "x" :=
    readText_eq_ok.mpr ⟨_, fileAt_eq_ok.mpr ⟨["src", "a.rs"], entryAt_eq_ok.mpr
      ⟨Path.fault?_eq_none.mpr (by decide), rfl, 40, .step (.stay rfl)
        (.step (.into rfl (by decide) rfl nofun) (.single (.into rfl (by decide) rfl nofun)))⟩⟩,
      FileData.text?_toUTF8 "x" _ _⟩
  refine ⟨by decide, fun hsame => ?_⟩
  have hiff := (sameReading_iff_of_normalize_eq (p := ⟨"src/a.rs/"⟩) (q := ⟨"src/a.rs"⟩) .empty []
    ⟨"."⟩ (wellFormed_of_entries (t := oneSource) (by decide)) (by decide)).2.1
  exact (hiff.mp hsame).1 (.asks (by decide) (by decide) ⟨"x", hread⟩)

end Amend
