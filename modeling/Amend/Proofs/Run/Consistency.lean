import Amend.Proofs.Catalog.BuiltIn
import Amend.Proofs.Catalog.SoundRules
import Amend.Proofs.Rule.Replay
import Amend.Proofs.Run.AllOrNothing
import Amend.Proofs.Run.Isolation
import Amend.Proofs.Run.Treatment

/-!
# Consistent outcomes

What an outcome says in one of its fields it does not deny in another: whether it was a success and
why not, what was written, and what the rules did (`Outcome.Consistent`). This is so for each way an
outcome is made, and so for the outcomes of all runs (`Catalog.Assembled.consistent_outcomes`). The
sets of a catalog that was assembled have no id twice, so no rule is named twice.
-/

set_option autoImplicit false

namespace Amend

/-! ## What the rules did -/

/-- Of rules with these ids some fired, each one time at most, and none without a replacement. -/
structure Fired (ids applied : List String) (replacements : Nat) : Prop where
  sublist : applied.Sublist ids
  nodup : applied.Nodup
  length_le : applied.length ≤ replacements
  eq_zero_iff : replacements = 0 ↔ applied = []

theorem Fired.none (ids : List String) : Fired ids [] 0 :=
  ⟨List.nil_sublist _, List.nodup_nil, Nat.le_refl _, iff_of_true rfl rfl⟩

theorem Rule.length_applied_le (rs : List Rule) (text : List Char) :
    (applyAll rs text).applied.length ≤ (applyAll rs text).replacements := by
  induction rs generalizing text with
  | nil => exact Nat.le_refl _
  | cons r rs ih =>
    by_cases hidle : (r.apply text).2 = 0
    · rw [applyAll_cons_of_idle hidle]
      exact ih text
    · rw [applyAll_cons_of_fires hidle]
      have hrest := ih (r.apply text).1
      simp only [List.length_cons]
      omega

theorem Rule.fired_applyAll {rs : List Rule} (h : (rs.map Rule.id).Nodup) (text : List Char) :
    Fired (rs.map Rule.id) (applyAll rs text).applied (applyAll rs text).replacements where
  sublist := applied_sublist rs text
  nodup := (applied_sublist rs text).nodup h
  length_le := length_applied_le rs text
  eq_zero_iff := replacements_eq_zero_iff rs text

theorem Rule.applied_ne_nil {rs : List Rule} {text : List Char}
    (h : (applyAll rs text).text ≠ text) : (applyAll rs text).applied ≠ [] :=
  fun hnil => h (text_applyAll_of_applied_eq_nil hnil)

/-! ## Outcomes -/

/-- The outcome of a target that rules with these ids are for says the same in all its fields. -/
structure Outcome.Consistent (mode : WriteMode) (ids : List String) (o : Outcome) : Prop where
  success_iff_error : o.success = true ↔ o.error = none
  success_iff_status :
    o.success = true ↔ o.status = .rewritten ∨ o.status = .unchanged ∨ o.status = .planned
  rewritten : o.status = .rewritten → mode = .inPlace
  planned : o.status = .planned → mode = .dryRun
  fired : Fired ids o.applied o.replacements
  changed :
    o.status = .rewritten ∨ o.status = .planned ∨ o.status = .writeFailed → o.applied ≠ []
  idle : o.status = .notFound ∨ o.status = .readFailed ∨ o.status = .aborted → o.applied = []

namespace Outcome

variable {mode : WriteMode} {ids : List String} {p : Path} {f : Failure} {result : Rewrite}

theorem consistent_failed
    (h : OutcomeStatus.ofFailure f = .notFound ∨ OutcomeStatus.ofFailure f = .readFailed) :
    (failed p f).Consistent mode ids := by
  refine ⟨?_, ?_, ?_, ?_, .none ids, ?_, fun _ => rfl⟩ <;>
    rcases h with h | h <;> simp [failed, h]

theorem consistent_aborted (reason : String) : (aborted p reason).Consistent mode ids := by
  refine ⟨?_, ?_, ?_, ?_, .none ids, ?_, fun _ => rfl⟩ <;> simp [aborted]

theorem consistent_unchanged (h : Fired ids result.applied result.replacements) :
    (succeeded p .unchanged result).Consistent mode ids := by
  refine ⟨?_, ?_, ?_, ?_, h, ?_, ?_⟩ <;> simp [succeeded]

theorem consistent_planned (h : Fired ids result.applied result.replacements)
    (hne : result.applied ≠ []) : (succeeded p .planned result).Consistent .dryRun ids := by
  refine ⟨?_, ?_, ?_, fun _ => rfl, h, fun _ => hne, ?_⟩ <;> simp [succeeded]

theorem consistent_rewritten (h : Fired ids result.applied result.replacements)
    (hne : result.applied ≠ []) : (succeeded p .rewritten result).Consistent .inPlace ids := by
  refine ⟨?_, ?_, fun _ => rfl, ?_, h, fun _ => hne, ?_⟩ <;> simp [succeeded]

theorem consistent_unwritten (q : Path) (e : FileError)
    (h : Fired ids result.applied result.replacements) (hne : result.applied ≠ []) :
    (unwritten p (.writeFailure q e) result).Consistent mode ids := by
  refine ⟨?_, ?_, ?_, ?_, h, fun _ => hne, ?_⟩ <;>
    simp [unwritten, failed, OutcomeStatus.ofFailure]

end Outcome

/-! ## Plans -/

section
variable {faults : Faults} {t : FileTree} {cwd : Location} {base p : Path} {mode : WriteMode}
  {set : RuleSet} {o : Outcome} {result : Rewrite}

theorem consistent_planFile (hids : (set.rules.map Rule.id).Nodup)
    (h : planFile faults t cwd base mode p set = .settled o) :
    o.Consistent mode (set.rules.map Rule.id) := by
  unfold planFile at h
  split at h
  · next f hf =>
    cases h
    exact Outcome.consistent_failed (readSource_error hf)
  · next old hold =>
    have hfired := Rule.fired_applyAll hids old.toList
    dsimp only at h
    split at h
    · cases h
      exact Outcome.consistent_unchanged hfired
    · next hne =>
      cases mode <;> cases h
      exact Outcome.consistent_planned hfired (Rule.applied_ne_nil hne)

/-- What is to be written has seen a rule fire, and only a run in place writes. -/
theorem fired_of_planFile (hids : (set.rules.map Rule.id).Nodup)
    (h : planFile faults t cwd base mode p set = .write result) :
    mode = .inPlace ∧ Fired (set.rules.map Rule.id) result.applied result.replacements ∧
      result.applied ≠ [] := by
  obtain ⟨hmode, old, -, rfl, hne⟩ := planFile_eq_write h
  exact ⟨hmode, Rule.fired_applyAll hids _, Rule.applied_ne_nil hne⟩

/-- Whatever fails while a target is rewritten, its outcome is consistent. -/
theorem consistent_rewriteFile (hids : (set.rules.map Rule.id).Nodup) :
    (rewriteFile faults t cwd base mode p set).2.Consistent mode (set.rules.map Rule.id) := by
  unfold rewriteFile
  cases hplan : planFile faults t cwd base mode p set with
  | settled o => exact consistent_planFile hids hplan
  | write result =>
    obtain ⟨rfl, hfired, hne⟩ := fired_of_planFile hids hplan
    dsimp only
    generalize hw : writeSource faults t cwd (base ++ p) (.ofList result.text) = written
    obtain ⟨t', r⟩ := written
    rcases writeSource_cases hw with ⟨rfl, -⟩ | ⟨e, rfl, -⟩
    · exact Outcome.consistent_rewritten hfired hne
    · exact Outcome.consistent_unwritten _ e hfired hne

end

/-- What can come of a target is consistent, also where its worker died or did not write. -/
theorem Treated.consistent {trees : FileTree → Prop} {cwd : Location} {base p : Path}
    {mode : WriteMode} {set : RuleSet} {o : Outcome} (h : Treated trees cwd base mode set p o)
    (hids : (set.rules.map Rule.id).Nodup) : o.Consistent mode (set.rules.map Rule.id) := by
  cases h with
  | settled _ hplan => exact consistent_planFile hids hplan
  | rewritten _ hplan =>
    obtain ⟨rfl, hfired, hne⟩ := fired_of_planFile hids hplan
    exact Outcome.consistent_rewritten hfired hne
  | unwritten e _ hplan =>
    obtain ⟨rfl, hfired, hne⟩ := fired_of_planFile hids hplan
    exact Outcome.consistent_unwritten _ e hfired hne
  | aborted reason => exact Outcome.consistent_aborted reason

/-! ## Runs -/

namespace Catalog

variable {c : Catalog} {s : RuleSet}

/-- The ids of the rules that are for a file. -/
def idsFor (c : Catalog) (file : Path) : List String :=
  (c.get? file).elim [] fun set => set.rules.map Rule.id

theorem map_id_setFor (c : Catalog) (file : Path) :
    (c.setFor file).rules.map Rule.id = c.idsFor file := by
  unfold setFor idsFor
  cases c.get? file <;> rfl

theorem Assembled.nodup_ids (h : c.Assembled) (hs : s ∈ c.sets) : (s.rules.map Rule.id).Nodup := by
  cases h with
  | ofDefinition h =>
    obtain ⟨blocks, hblocks, hflatten⟩ := exists_of_map_eq_ok (sets_of_ofDefinition h)
    rw [← hflatten] at hs
    obtain ⟨sets, hsets, hs⟩ := List.mem_flatten.mp hs
    obtain ⟨d, -, hd⟩ := exists_of_mapM_eq_ok hblocks sets hsets
    obtain ⟨rules, -, hbuilds⟩ := exists_of_bind_eq_ok hd
    obtain ⟨file, -, hbuild⟩ := exists_of_mapM_eq_ok hbuilds s hs
    exact RuleSet.nodup_of_build hbuild
  | ofRuleSets hsets h =>
    rw [sets_of_ofRuleSets h] at hs
    obtain ⟨rules, fields, -, hbuild⟩ := hsets s hs
    exact RuleSet.nodup_of_build hbuild

theorem Assembled.nodup_setFor (h : c.Assembled) (file : Path) :
    ((c.setFor file).rules.map Rule.id).Nodup := by
  unfold setFor
  cases hget : c.get? file with
  | none => exact List.nodup_nil
  | some set => exact h.nodup_ids (List.mem_of_find?_eq_some hget)

end Catalog

theorem Treated.file_eq {trees : FileTree → Prop} {cwd : Location} {base p : Path}
    {mode : WriteMode} {set : RuleSet} {o : Outcome} (h : Treated trees cwd base mode set p o) :
    o.file = p := by
  cases h with
  | settled _ hplan => exact file_of_planFile hplan
  | rewritten | unwritten | aborted => rfl

/-- A report of consistent outcomes with files that changed counts replacements. -/
theorem Report.totalReplacements_pos {r : Report}
    (h : ∀ o ∈ r.outcomes, ∃ mode ids, o.Consistent mode ids) (hpos : 0 < r.filesChanged) :
    0 < r.totalReplacements := by
  obtain ⟨o, ho, hchanged⟩ := List.countP_pos_iff.mp hpos
  obtain ⟨mode, ids, hconsistent⟩ := h o ho
  have hstatus : o.status = .rewritten ∨ o.status = .planned := by
    simpa [Outcome.changed] using hchanged
  have hne : o.replacements ≠ 0 := fun hzero =>
    hconsistent.changed (hstatus.imp_right .inl) (hconsistent.fired.eq_zero_iff.mp hzero)
  unfold totalReplacements
  obtain ⟨before, after, hsplit⟩ := List.append_of_mem ho
  rw [hsplit]
  clear * - hne
  induction before with
  | nil =>
    simp only [List.nil_append, List.foldr_cons]
    omega
  | cons first before ih =>
    simp only [List.cons_append, List.foldr_cons]
    omega

/-- Each outcome of a run is consistent with itself and with the set that its target is bound to,
whatever is found in the tree, whatever fails, and whatever turns the workers of a parallel run take
and whichever of them die. So a run that changed files has made replacements. -/
theorem Catalog.Assembled.consistent_outcomes {c : Catalog} (h : c.Assembled) (settings : Settings)
    (turns : List Turn) (cwd : Location) (targets : List Path) (t : FileTree) :
    let outcomes := (settings.rewriteInTurns turns c cwd targets t).2
    outcomes.map Outcome.file = distinctTargets targets ∧
    (∀ o ∈ outcomes, o.Consistent settings.mode (c.idsFor o.file)) ∧
    (∀ faults p, (rewriteFile faults t cwd settings.base settings.mode p (c.setFor p)).2.Consistent
      settings.mode (c.idsFor p)) ∧
    ∀ verification, let report : Report := ⟨outcomes, verification⟩
      0 < report.filesChanged → 0 < report.totalReplacements := by
  intro outcomes
  have hall : ∀ o ∈ outcomes, o.Consistent settings.mode (c.idsFor o.file) := by
    obtain ⟨turns', -, htreated⟩ := settings.accomplishes_rewriteInTurns turns c cwd targets t
    intro o ho
    obtain ⟨i, hi, rfl⟩ := List.getElem_of_mem ho
    have hi' : i < (distinctTargets targets).length := htreated.length_eq ▸ hi
    have htreats := htreated.get hi' hi
    rw [List.get_eq_getElem, List.get_eq_getElem] at htreats
    rw [htreats.file_eq, ← map_id_setFor]
    exact htreats.consistent (h.nodup_setFor _)
  refine ⟨map_file_rewriteInTurns settings turns c cwd targets t, hall, fun faults p => ?_,
    fun verification => Report.totalReplacements_pos fun o ho => ⟨_, _, hall o ho⟩⟩
  rw [← map_id_setFor]
  exact consistent_rewriteFile (h.nodup_setFor p)

/-- Rules that are declared for a file: `x` becomes `y`. -/
def declaredRules : CatalogDefinition :=
  ⟨[⟨"s", none, [⟨"./a.rs"⟩], [BuiltIn.replacingText "r" "x" "y"], none⟩]⟩

/-- The outcomes of two files, one of them spelled twice: rules are bound to the first only, and the
worker of the second dies. -/
theorem declaredRules_consistent :
    ∃ c, Catalog.ofDefinition declaredRules = .ok c ∧
      c.idsFor ⟨"a.rs"⟩ = ["r"] ∧ c.idsFor ⟨"b.rs"⟩ = [] ∧
      let settings : Settings := { inPlaceHere with parallel := true }
      let outcomes := (settings.rewriteInTurns [.step 1, .step 0, .death 1 "killed"] c ["p"]
        [⟨"a.rs"⟩, ⟨"b.rs"⟩, ⟨"./a.rs"⟩] sideBySide).2
      outcomes.map Outcome.file = [⟨"a.rs"⟩, ⟨"b.rs"⟩] ∧
      ∀ o ∈ outcomes, o.Consistent .inPlace (c.idsFor o.file) := by
  have hc : Catalog.ofDefinition declaredRules =
      .ok ⟨[⟨"s", ⟨"a.rs"⟩, [.ofWord "r" "x" "y" none]⟩], []⟩ := rfl
  obtain ⟨hfiles, hconsistent, -⟩ := Catalog.Assembled.consistent_outcomes (.ofDefinition hc)
    { inPlaceHere with parallel := true } [.step 1, .step 0, .death 1 "killed"] ["p"]
    [⟨"a.rs"⟩, ⟨"b.rs"⟩, ⟨"./a.rs"⟩] sideBySide
  exact ⟨_, hc, by decide, by decide, hfiles.trans (by decide), hconsistent⟩

end Amend
