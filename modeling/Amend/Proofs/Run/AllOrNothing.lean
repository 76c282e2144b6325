import Amend.Proofs.FileTree.Staging
import Amend.Run.Rewriting

/-!
# A target is rewritten or nothing happens

Whichever operation fails, `rewriteFile` leaves the tree as it was unless the target was rewritten
(`rewriteFile_allOrNothing`), and then one entry has changed: the file that the target led to, or
the link to it.
-/

set_option autoImplicit false

namespace Amend

open FileTree StagedWrite

variable {faults : Faults} {t t' : FileTree} {cwd : Location} {base target p : Path}
  {mode : WriteMode} {set : RuleSet} {o : Outcome} {text : List Char}

/-! ## What a rewriting leaves -/

/-- The tree `t'` is `t` with a new text where `p` leads. The entry at `slot` is all that changed:
it was the file at `file` or a link that led to it, and is a file of its own with the permission
bits of that one. -/
structure Rewritten (t t' : FileTree) (cwd : Location) (p : Path) (text : List Char)
    (slot file : Location) (old : FileData) : Prop where
  led : t.entryAt cwd p = .ok (file, .file old)
  stood : EndsIn t slot file
  leads : t'.entryAt cwd p = .ok (slot, .file ⟨(String.ofList text).toUTF8, old.mode, none⟩)
  reads : t'.readText cwd p = .ok (.ofList text)
  others : ∀ l ≠ slot, t'.get? l = t.get? l

theorem rewritten_of_writeAtomic {file : Location} {old : FileData}
    (ho : t.entryAt cwd p = .ok (file, .file old))
    (h : writeAtomic faults t cwd p (.ofList text) = (t', .ok ())) :
    ∃ slot, Rewritten t t' cwd p text slot file old := by
  obtain ⟨dir, name, hslot, hE, rfl⟩ := writeAtomic_ok ho h
  have hleads := hslot.entryAt_set hE ⟨(String.ofList text).toUTF8, old.mode, none⟩
  exact ⟨dir ++ [name], ho, hE, hleads, readText_of_entryAt hleads, fun l hl => get?_set_ne hl⟩

/-! ## Plans -/

theorem readSource_eq_ok {text : String} (h : readSource faults t cwd p = .ok text) :
    t.readText cwd p = .ok text := by
  unfold readSource at h
  dsimp only at h
  split at h <;> cases h
  next h =>
  split at h
  · cases h
  · exact h

theorem readSource_error {f : Failure} (h : readSource faults t cwd p = .error f) :
    OutcomeStatus.ofFailure f = .notFound ∨ OutcomeStatus.ofFailure f = .readFailed := by
  unfold readSource at h
  dsimp only at h
  split at h <;> cases h
  · exact .inl rfl
  · exact .inr rfl

theorem planFile_eq_write {result : Rewrite}
    (h : planFile faults t cwd base mode target set = .write result) :
    mode = .inPlace ∧ ∃ old, t.readText cwd (base ++ target) = .ok old ∧
      result = Rule.applyAll set.rules old.toList ∧ result.text ≠ old.toList := by
  unfold planFile at h
  split at h
  · cases h
  next old hold =>
  dsimp only at h
  split at h
  · cases h
  next hne =>
  cases mode with
  | dryRun => cases h
  | inPlace =>
    cases h
    exact ⟨rfl, old, readSource_eq_ok hold, rfl, hne⟩

theorem planFile_settled (h : planFile faults t cwd base mode target set = .settled o) :
    o.status ∈ [.unchanged, .planned, .notFound, .readFailed] := by
  unfold planFile at h
  split at h
  · next f hf =>
    cases h
    rcases readSource_error hf with h | h <;> simp [Outcome.failed, h]
  · dsimp only at h
    split at h
    · cases h
      simp [Outcome.succeeded]
    · cases mode <;> cases h
      simp [Outcome.succeeded]

/-! ## Rewriting a target -/

theorem writeSource_cases {r : Except Failure Unit} {text : String}
    (h : writeSource faults t cwd p text = (t', r)) :
    (r = .ok () ∧ writeAtomic faults t cwd p text = (t', .ok ())) ∨
      ∃ e, r = .error (.writeFailure p e) ∧ t' = t := by
  unfold writeSource at h
  split at h
  · next hw =>
    cases h
    exact .inl ⟨rfl, hw⟩
  · next e hw =>
    cases h
    exact .inr ⟨e, rfl, writeAtomic_error hw⟩

/-- What can become of a target: it is settled before anything is written, it is rewritten, or
writing its new text fails and changes nothing. -/
theorem rewriteFile_cases (faults : Faults) (t : FileTree) (cwd : Location) (base : Path)
    (mode : WriteMode) (target : Path) (set : RuleSet) :
    (∃ o, rewriteFile faults t cwd base mode target set = (t, o) ∧
      o.status ∈ [.unchanged, .planned, .notFound, .readFailed]) ∨
    mode = .inPlace ∧ ∃ old result, t.readText cwd (base ++ target) = .ok old ∧
      result = Rule.applyAll set.rules old.toList ∧ result.text ≠ old.toList ∧
      ((∃ t' slot file d, rewriteFile faults t cwd base mode target set =
          (t', .succeeded target .rewritten result) ∧
        Rewritten t t' cwd (base ++ target) result.text slot file d) ∨
      ∃ e, rewriteFile faults t cwd base mode target set =
        (t, .unwritten target (.writeFailure (base ++ target) e) result)) := by
  unfold rewriteFile
  cases hplan : planFile faults t cwd base mode target set with
  | settled o => exact .inl ⟨o, rfl, planFile_settled hplan⟩
  | write result =>
    obtain ⟨hmode, old, hold, hresult, hne⟩ := planFile_eq_write hplan
    refine .inr ⟨hmode, old, result, hold, hresult, hne, ?_⟩
    generalize hw : writeSource faults t cwd (base ++ target) (.ofList result.text) = written
    obtain ⟨t', r⟩ := written
    dsimp only
    rcases writeSource_cases hw with ⟨rfl, hatomic⟩ | ⟨e, rfl, rfl⟩
    · rw [hw]
      obtain ⟨file, d, hfile, -⟩ := exists_entryAt_of_readText hold
      obtain ⟨slot, hslot⟩ := rewritten_of_writeAtomic hfile hatomic
      exact .inl ⟨t', slot, file, d, rfl, hslot⟩
    · rw [hw]
      exact .inr ⟨e, rfl⟩

/-- A target is rewritten or the tree is as it was, whichever operation fails. -/
theorem rewriteFile_allOrNothing (faults : Faults) (t : FileTree) (cwd : Location) (base : Path)
    (mode : WriteMode) (target : Path) (set : RuleSet) :
    let run := rewriteFile faults t cwd base mode target set
    run.2.status ∈ [.rewritten, .unchanged, .planned, .notFound, .readFailed, .writeFailed] ∧
    (run.2.status = .rewritten → ∃ old, t.readText cwd (base ++ target) = .ok old ∧
      (Rule.applyAll set.rules old.toList).text ≠ old.toList ∧
      ∃ slot file d, Rewritten t run.1 cwd (base ++ target)
        (Rule.applyAll set.rules old.toList).text slot file d) ∧
    (run.2.status ≠ .rewritten → run.1 = t) ∧
    (mode = .dryRun → run.1 = t) ∧
    (run.2.status = .writeFailed → ∃ old, t.readText cwd (base ++ target) = .ok old ∧
      run.2.applied = (Rule.applyAll set.rules old.toList).applied ∧
      run.2.replacements = (Rule.applyAll set.rules old.toList).replacements) := by
  dsimp only
  rcases rewriteFile_cases faults t cwd base mode target set with
    ⟨o, ho, hstatus⟩ | ⟨rfl, old, result, hold, rfl, hne, ⟨t', slot, file, d, ho, hr⟩ | ⟨e, ho⟩⟩
  · rw [ho]
    refine ⟨?_, ?_, fun _ => rfl, fun _ => rfl, ?_⟩
    · simp only [List.mem_cons, List.not_mem_nil, or_false] at hstatus ⊢
      rcases hstatus with h | h | h | h <;> simp [h]
    · intro h
      rw [h] at hstatus
      simp at hstatus
    · intro h
      rw [h] at hstatus
      simp at hstatus
  · rw [ho]
    exact ⟨by simp [Outcome.succeeded], fun _ => ⟨old, hold, hne, slot, file, d, hr⟩,
      fun h => absurd rfl h, nofun, nofun⟩
  · rw [ho]
    have hstatus : (Outcome.unwritten target (.writeFailure (base ++ target) e)
        (Rule.applyAll set.rules old.toList)).status = .writeFailed := rfl
    exact ⟨by simp [hstatus], nofun, fun _ => rfl, nofun, fun _ => ⟨old, hold, rfl, rfl⟩⟩

end Amend
