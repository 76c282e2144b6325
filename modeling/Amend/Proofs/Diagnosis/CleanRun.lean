import Amend.Proofs.Diagnosis.Ready
import Amend.Proofs.FileTree.Relative
import Amend.Proofs.Run.Bounded
import Amend.Proofs.Run.ExitCode

/-!
# Runs after a clean diagnosis

Where the diagnosis of a project finds nothing wrong, a run as its settings say has a catalog with
rule sets and does not fail, and it finds all of its targets (`Machine.run_of_clean_diagnosis`).
What it writes on its way does not matter: files are put in the place of what led to files only, so
that what led to a file before leads to one still.
-/

set_option autoImplicit false

namespace Amend

open FileTree

/-! ## Targets that are files -/

section
variable {t : FileTree} {cwd : Location} {base : Path} {mode : WriteMode} {p : Path} {F : Location}
  {d : FileData}

theorem readSource_of_file (h : t.entryAt cwd p = .ok (F, .file d)) :
    (∃ text, readSource noFaults t cwd p = .ok text) ∨
      readSource noFaults t cwd p = .error (.readFailure p .notText) := by
  have hfile : t.fileAt cwd p = .ok d := fileAt_eq_ok.mpr ⟨F, h⟩
  cases htext : d.text? with
  | some text => exact .inl ⟨text, by simp [readSource, noFaults, readText, hfile, htext]⟩
  | none => exact .inr (by simp [readSource, noFaults, readText, hfile, htext])

theorem status_planFile_of_file {set : RuleSet} {o : Outcome}
    (h : t.entryAt cwd (base ++ p) = .ok (F, .file d))
    (hplan : planFile noFaults t cwd base mode p set = .settled o) : o.status ≠ .notFound := by
  unfold planFile at hplan
  rcases readSource_of_file h with ⟨text, htext⟩ | hunreadable
  · rw [htext] at hplan
    dsimp only at hplan
    split at hplan
    · cases hplan
      nofun
    · cases mode <;> cases hplan
      nofun
  · rw [hunreadable] at hplan
    cases hplan
    nofun

end

/-! ## Runs on files -/

section
variable {s : Start} {targets : List Path}

/-- Whatever the workers have done before, none of them misses its target. -/
theorem Start.found_after (h : ∀ p ∈ targets, s.Led p) (turns : List Turn) :
    ∀ k ∈ (s.after turns targets).2, ∀ o, k.progress = .finished o → o.status ≠ .notFound := by
  refine s.ends_after (Q := fun _ o => o.status ≠ .notFound) (fun turns p hp o hends => ?_)
    (fun _ _ _ => nofun) turns
  cases hends with
  | settled hplan =>
    obtain ⟨F, d, hF⟩ := h p hp
    have haltered := (s.bounded_after (fun p hp => (h p hp).recognizes) turns).tree
    obtain ⟨F', d', hF'⟩ := haltered.entryAt_file hF
    exact status_planFile_of_file hF' hplan
  | unwritten | rewritten => nofun

theorem rewriteAtOnce_found (h : ∀ p ∈ targets, s.Led p) (turns : List Turn) :
    ∀ o ∈ (rewriteAtOnce s.catalog s.cwd s.base s.mode turns targets s.tree).2,
      o.status ≠ .notFound := by
  obtain ⟨turns', workers, hafter, hmap, -⟩ := s.exists_end turns targets
  have hfound := s.found_after h turns'
  rw [hafter] at hfound
  intro o ho
  have hmem := List.mem_map_of_mem (f := Progress.finished) ho
  rw [← hmap] at hmem
  obtain ⟨k, hk, hprogress⟩ := List.mem_map.mp hmem
  exact hfound k hk o hprogress

end

theorem rewriteInTurns_found (s : Settings) (turns : List Turn) (c : Catalog) (cwd : Location)
    (targets : List Path) (t : FileTree) (h : ∀ p ∈ targets, t.isFile cwd (s.base ++ p) = true) :
    ∀ o ∈ (s.rewriteInTurns turns c cwd targets t).2, o.status ≠ .notFound := by
  have hled : ∀ p ∈ distinctTargets targets, Start.Led ⟨c, cwd, s.base, s.mode, t⟩ p :=
    fun p hp => isFile_iff.mp (h p (mem_of_mem_distinctTargets hp))
  unfold Settings.rewriteInTurns
  dsimp only
  split
  · exact rewriteAtOnce_found hled turns
  · rw [← rewriteAtOnce_nil]
    exact rewriteAtOnce_found hled []

/-! ## Clean diagnoses -/

namespace Machine

variable {m : Machine} {root : Path}

theorem performDoctor_eq (m : Machine) (root : Path) :
    (m.performDoctor root).on m.tree =
      (.ok ⟨.diagnosis (m.diagnose root), (m.diagnose root).exitCode⟩, m.tree) := rfl

theorem settings_default (root : Path) (config : Config) :
    ({} : RunRequest).settings root config = Settings.ofConfig root config := by
  simp [RunRequest.settings]

/-- If a diagnosis ends with exit code zero, it has changed nothing, and a run as the settings of
the project say does not fail. It has a catalog with rule sets, its exit code is zero or one, and
it finds each of its targets, in whatever turns its workers take and whatever it rewrites before. -/
theorem run_of_clean_diagnosis (m : Machine) (root : Path) (display : Display) (tree : FileTree)
    (hdoctor : (m.performDoctor root).on m.tree = (.ok display, tree))
    (hclean : display.exitCode = 0) (checker : Checker) (verbose : Bool) (turns : List Turn) :
    tree = m.tree ∧ ∃ config catalog report display',
      m.config root = .ok config ∧
      m.catalog (Settings.ofConfig root config).catalog = .ok catalog ∧ catalog.sets ≠ [] ∧
      ((m.performRun checker root verbose {} turns).on tree).1 = .ok display' ∧
      (display'.exitCode = 0 ∨ display'.exitCode = 1) ∧
      display'.screen = .run false verbose report ∧
      Reported m checker (Settings.ofConfig root config) catalog turns report
        ((m.performRun checker root verbose {} turns).on tree).2 ∧
      ∀ o ∈ report.outcomes, o.status ≠ .notFound := by
  rw [performDoctor_eq] at hdoctor
  cases hdoctor
  obtain ⟨config, catalog, h⟩ := exitCode_diagnose_eq_zero_iff.mp hclean
  have hloaded : m.catalog (({} : RunRequest).settings root config).catalog = .ok catalog := by
    rw [settings_default]
    exact h.loaded
  have hreported := reported_run m checker (Settings.ofConfig root config) catalog turns
  have hfound := rewriteInTurns_found (Settings.ofConfig root config) turns catalog m.cwd _ m.tree
    h.present
  rw [performRun_of_ok h.configured hloaded, settings_default]
  refine ⟨rfl, config, catalog, _, _, h.configured, h.loaded, h.useful, rfl, ?_, rfl, hreported, ?_⟩
  · dsimp only
    split
    · exact .inl rfl
    · exact .inr rfl
  · obtain ⟨t, hrewritten, -⟩ := hreported.rewritten
    rw [hrewritten] at hfound
    exact hfound

/-! ## An instance -/

/-- The settings of a project with rules of its own and without a check. -/
def linkedConfig : Config :=
  { verify := false, catalog := some ⟨"rules.yaml"⟩ }

/-- The text of these settings. -/
def linkedSettings : String :=
  "verify = false\ncatalog = \"rules.yaml\"\n"

/-- A rule for a file and a link to it. -/
def linkedRules : String :=
  "rule_sets:\n- name: s\n  files: [b, a]\n" ++
    "  rules:\n  - \x7bid: r, pattern: x, replace: y\x7d\n"

/-- A project with a file and a link to it, which both are targets. -/
def linkedProject : Machine where
  tree := ⟨[(["p"], .dir false),
    (["p", ".sentinel-fix.toml"], .file ⟨linkedSettings.toUTF8, 0o644, none⟩),
    (["p", "rules.yaml"], .file ⟨linkedRules.toUTF8, 0o644, none⟩),
    (["p", "a"], .file ⟨"x".toUTF8, 0o644, none⟩),
    (["p", "b"], .link ⟨"a"⟩)]⟩
  cwd := []
  searchPath := none

/-- Checks that pass. -/
def passing : Checker :=
  fun m _ command => (⟨command, true, some 0, ""⟩, m.tree)

theorem linkedProject_config : linkedProject.config ⟨"/p"⟩ = .ok linkedConfig := by
  have he : linkedProject.tree.entryAt linkedProject.cwd (configPath ⟨"/p"⟩) =
      .ok (["p", ".sentinel-fix.toml"], .file ⟨linkedSettings.toUTF8, 0o644, none⟩) :=
    entryAt_eq_ok.mpr ⟨Path.fault?_eq_none.mpr (by decide), rfl, 40,
      .step (.into rfl (by decide) rfl nofun) (.single (.into rfl (by decide) rfl nofun))⟩
  exact config_of_readText (readText_of_entryAt he) (by decide +kernel)

theorem linkedProject_catalog : ∃ catalog,
    linkedProject.catalog (.file ⟨"/p/rules.yaml"⟩) = .ok catalog ∧
      catalog.files = [⟨"b"⟩, ⟨"a"⟩] := by
  have he : linkedProject.tree.entryAt linkedProject.cwd ⟨"/p/rules.yaml"⟩ =
      .ok (["p", "rules.yaml"], .file ⟨linkedRules.toUTF8, 0o644, none⟩) :=
    entryAt_eq_ok.mpr ⟨Path.fault?_eq_none.mpr (by decide), rfl, 40,
      .step (.into rfl (by decide) rfl nofun) (.single (.into rfl (by decide) rfl nofun))⟩
  have hfiles : (Catalog.ofYaml? linkedRules).toOption.map Catalog.files =
      some [⟨"b"⟩, ⟨"a"⟩] := by
    decide +kernel
  simp only [catalog, readText_of_entryAt he]
  cases hread : Catalog.ofYaml? linkedRules with
  | error fault =>
    rw [hread] at hfiles
    cases hfiles
  | ok catalog =>
    rw [hread] at hfiles
    exact ⟨catalog, rfl, Option.some.inj hfiles⟩

theorem linkedProject_ready : ∃ config catalog, linkedProject.Ready ⟨"/p"⟩ config catalog := by
  obtain ⟨catalog, hcatalog, hfiles⟩ := linkedProject_catalog
  refine ⟨_, catalog, linkedProject_config, hcatalog, fun hnil => ?_, fun p hp => ?_, rfl⟩
  · rw [Catalog.files, hnil] at hfiles
    cases hfiles
  · have htargets : (Settings.ofConfig ⟨"/p"⟩ linkedConfig).defaultTargets catalog =
        [⟨"b"⟩, ⟨"a"⟩] := hfiles
    rw [htargets] at hp
    refine isFile_iff.mpr ⟨["p", "a"], ⟨"x".toUTF8, 0o644, none⟩, ?_⟩
    simp only [List.mem_cons, List.not_mem_nil, or_false] at hp
    rcases hp with rfl | rfl
    · exact entryAt_eq_ok.mpr ⟨Path.fault?_eq_none.mpr (by decide), rfl, 39,
        .step (.into rfl (by decide) rfl nofun) (.step (.link rfl (by decide) rfl)
          (.single (.into rfl (by decide) rfl nofun)))⟩
    · exact entryAt_eq_ok.mpr ⟨Path.fault?_eq_none.mpr (by decide), rfl, 40,
        .step (.into rfl (by decide) rfl nofun) (.single (.into rfl (by decide) rfl nofun))⟩

/-- The file and the link to it are both found. -/
theorem linkedProject_found :
    (linkedProject.diagnose ⟨"/p"⟩).exitCode = 0 ∧ ∃ report display,
      ((linkedProject.performRun passing ⟨"/p"⟩ false {} []).on linkedProject.tree).1 =
        .ok display ∧
      display.screen = .run false false report ∧ ∀ o ∈ report.outcomes, o.status ≠ .notFound := by
  have hclean : (linkedProject.diagnose ⟨"/p"⟩).exitCode = 0 :=
    exitCode_diagnose_eq_zero_iff.mpr linkedProject_ready
  obtain ⟨-, config, catalog, report, display, -, -, -, hdone, -, hscreen, -, hfound⟩ :=
    run_of_clean_diagnosis linkedProject ⟨"/p"⟩ _ _ (performDoctor_eq ..) hclean passing false []
  exact ⟨hclean, report, display, hdone, hscreen, hfound⟩

end Machine

end Amend
