import Amend.Diagnosis
import Amend.Proofs.FileTree.Walk

/-!
# Projects that nothing is wrong with

The diagnosis of a project ends with exit code zero exactly if the project is ready: its
configuration and its catalog load, the catalog is of some use, the targets are files, and the
check command can be found if it is needed (`exitCode_diagnose_eq_zero_iff`).
-/

set_option autoImplicit false

namespace Amend

namespace Machine

variable {m : Machine} {root : Path} {config : Config} {catalog : Catalog}

/-- Nothing stands in the way of a run. -/
structure Ready (m : Machine) (root : Path) (config : Config) (catalog : Catalog) : Prop where
  configured : m.config root = .ok config
  loaded : m.catalog (Settings.ofConfig root config).catalog = .ok catalog
  useful : catalog.sets ≠ []
  present : ∀ p ∈ (Settings.ofConfig root config).defaultTargets catalog,
    m.isFile (root ++ p) = true
  checkable : (m.diagnoseCommand config).isIssue = false

theorem missingTargets_eq_nil_iff {targets : List Path} :
    m.missingTargets root targets = [] ↔ ∀ p ∈ targets, m.isFile (root ++ p) = true := by
  simp [missingTargets]

theorem exitCode_eq_zero_iff {d : Diagnosis} : d.exitCode = 0 ↔ d.issues = 0 := by
  unfold Diagnosis.exitCode
  split <;> simp_all

theorem issues_complete_eq_zero_iff {file : Option Path} {catalog : CatalogFinding}
    {targets : Option TargetFinding} {command : CommandFinding} :
    (Diagnosis.complete file catalog targets command).issues = 0 ↔
      catalog.isIssue = false ∧ targets.any TargetFinding.isIssue = false ∧
        command.isIssue = false := by
  simp only [Diagnosis.issues, Nat.add_eq_zero_iff, Bool.toNat_eq_zero, and_assoc]

theorem config_eq_ok_iff :
    m.config root = .ok config ↔ ∃ found, m.config? root = .ok found ∧ config = found.getD {} := by
  unfold Machine.config
  cases m.config? root with
  | error fault => exact iff_of_false nofun nofun
  | ok found => simp [Except.map, eq_comm]

theorem config_of_readText {text : String}
    (h : m.tree.readText m.cwd (configPath root) = .ok text)
    (hconfig : Config.ofText? text = .ok config) : m.config root = .ok config := by
  have hexists : m.pathExists (configPath root) = true := FileTree.pathExists_of_readText h
  refine config_eq_ok_iff.mpr ⟨some config, ?_, rfl⟩
  simp only [config?, hexists, h, hconfig, if_true]

theorem diagnose_of_ok {found : Option Config} (h : m.config? root = .ok found) :
    m.diagnose root = .complete (found.map fun _ => configPath root)
      (m.diagnoseCatalog root (found.getD {})).1 (m.diagnoseCatalog root (found.getD {})).2
      (m.diagnoseCommand (found.getD {})) := by
  simp only [diagnose, h]

/-- The catalog is of use and the targets are files, or there is an issue. -/
theorem diagnoseCatalog_clean_iff :
    ((m.diagnoseCatalog root config).1.isIssue = false ∧
      (m.diagnoseCatalog root config).2.any TargetFinding.isIssue = false) ↔
    ∃ catalog, m.catalog (Settings.ofConfig root config).catalog = .ok catalog ∧
      catalog.sets ≠ [] ∧ ∀ p ∈ (Settings.ofConfig root config).defaultTargets catalog,
        m.isFile (root ++ p) = true := by
  cases hcatalog : m.catalog (Settings.ofConfig root config).catalog with
  | error fault =>
    simp only [diagnoseCatalog, hcatalog, CatalogFinding.isIssue]
    exact iff_of_false (fun h => nomatch h.1) (fun ⟨_, h, _⟩ => nomatch h)
  | ok catalog =>
    simp only [diagnoseCatalog, hcatalog, CatalogFinding.isIssue, Option.any_some,
      TargetFinding.isIssue, Bool.not_eq_false', List.isEmpty_iff, missingTargets_eq_nil_iff,
      beq_eq_false_iff_ne, ne_eq, List.length_eq_zero_iff, Except.ok.injEq, exists_eq_left']

/-- A diagnosis ends well exactly if nothing stands in the way of a run. -/
theorem exitCode_diagnose_eq_zero_iff :
    (m.diagnose root).exitCode = 0 ↔ ∃ config catalog, m.Ready root config catalog := by
  rw [exitCode_eq_zero_iff]
  constructor
  · intro h
    cases hfound : m.config? root with
    | error fault =>
      simp only [diagnose, hfound, Diagnosis.issues] at h
      cases h
    | ok found =>
      rw [diagnose_of_ok hfound, issues_complete_eq_zero_iff, ← and_assoc,
        diagnoseCatalog_clean_iff] at h
      obtain ⟨⟨catalog, hcatalog, huseful, htargets⟩, hcommand⟩ := h
      exact ⟨_, catalog, config_eq_ok_iff.mpr ⟨found, hfound, rfl⟩, hcatalog, huseful, htargets,
        hcommand⟩
  · rintro ⟨config, catalog, h⟩
    obtain ⟨found, hfound, rfl⟩ := config_eq_ok_iff.mp h.configured
    rw [diagnose_of_ok hfound, issues_complete_eq_zero_iff, ← and_assoc,
      diagnoseCatalog_clean_iff]
    exact ⟨⟨catalog, h.loaded, h.useful, h.present⟩, h.checkable⟩

end Machine

end Amend
