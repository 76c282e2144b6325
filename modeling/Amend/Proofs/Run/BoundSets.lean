import Amend.Proofs.Catalog.Index
import Amend.Proofs.Landing
import Amend.Proofs.Rule.Replay
import Amend.Proofs.Run.Treatment

/-!
# Runs over a catalog

A run that is told no targets takes the files of its catalog. No two of them have one normal form,
so each is a target of its own, and the set that is found for it is the one that it is bound to: the
run applies the sets of the catalog to their own files, in the order in which they were inserted
(`Catalog.Built.applies_bound_sets`).
-/

set_option autoImplicit false

namespace Amend

/-! ## Distinct targets -/

theorem distinctTargets_of_pairwise {targets : List Path}
    (h : targets.Pairwise fun p q => p.normalize ≠ q.normalize) :
    distinctTargets targets = targets := by
  suffices hgo : ∀ seen, (∀ p ∈ targets, p.normalize ∉ seen) →
      distinctTargets.go seen targets = targets from hgo [] fun _ _ => List.not_mem_nil
  induction targets with
  | nil => exact fun _ _ => rfl
  | cons target rest ih =>
    obtain ⟨hne, hrest⟩ := List.pairwise_cons.mp h
    intro seen hseen
    have hnew : ¬ seen.contains target.normalize = true := by
      simpa using hseen target List.mem_cons_self
    rw [distinctTargets.go, if_neg hnew, ih hrest]
    intro p hp hmem
    rcases List.mem_cons.mp hmem with heq | hmem
    · exact hne p hp heq.symm
    · exact hseen p (List.mem_cons_of_mem _ hp) hmem

/-- Applies sets to their own files, in order. -/
def rewriteSets (cwd : Location) (base : Path) (mode : WriteMode) :
    List RuleSet → FileTree → FileTree × List Outcome
  | [], t => (t, [])
  | set :: rest, t =>
    let (t, outcome) := rewriteFile noFaults t cwd base mode set.file set
    let (t, outcomes) := rewriteSets cwd base mode rest t
    (t, outcome :: outcomes)

namespace Catalog

variable {c : Catalog} {s : RuleSet} {file : Path}

/-! ## Looking up -/

theorem Built.pairwise (h : c.Built) :
    c.sets.Pairwise fun s s' => s.file.normalize ≠ s'.file.normalize := by
  have hnodup := h.nodup
  rw [bindings, List.map_map] at hnodup
  exact List.pairwise_map.mp hnodup

theorem Built.get?_eq_some (h : c.Built) :
    c.get? file = some s ↔ s ∈ c.sets ∧ s.file.normalize = file.normalize := by
  constructor
  · intro hget
    exact ⟨List.mem_of_find?_eq_some hget, by simpa using List.find?_some hget⟩
  · rintro ⟨hs, hkey⟩
    rw [← h.get?_file hs]
    unfold get?
    rw [hkey]

theorem get?_isSome : (c.get? file).isSome ↔ ∃ s ∈ c.sets, s.file.normalize = file.normalize := by
  unfold get?
  rw [List.find?_isSome]
  simp

theorem Built.setFor_file (h : c.Built) (hs : s ∈ c.sets) : c.setFor s.file = s := by
  rw [setFor, h.get?_file hs, Option.getD_some]

/-! ## Runs over the files of a catalog -/

theorem Built.distinctTargets_files (h : c.Built) : distinctTargets c.files = c.files :=
  distinctTargets_of_pairwise (List.pairwise_map.mpr h.pairwise)

theorem rewriteEach_files {sets : List RuleSet} (h : ∀ s ∈ sets, c.setFor s.file = s)
    (cwd : Location) (base : Path) (mode : WriteMode) (t : FileTree) :
    rewriteEach c cwd base mode (sets.map RuleSet.file) t = rewriteSets cwd base mode sets t := by
  induction sets generalizing t with
  | nil => rfl
  | cons s sets ih =>
    have hrest := ih fun s hs => h s (List.mem_cons_of_mem _ hs)
    simp only [List.map_cons, rewriteEach, rewriteSets, h s List.mem_cons_self, hrest]

/-- Workers that take turns apply each set to its own file. -/
theorem Built.treated_files (h : c.Built) (settings : Settings) (turns : List Turn)
    (cwd : Location) (t : FileTree) :
    ∃ turns', let start : Start := ⟨c, cwd, settings.base, settings.mode, t⟩
      let result := settings.rewriteInTurns turns c cwd c.files t
      result.1 = (start.after turns' c.files).1 ∧
      List.Forall₂ (fun set outcome => Treated (start.Meets turns' c.files) cwd settings.base
        settings.mode set set.file outcome) c.sets result.2 := by
  obtain ⟨turns', htree, houtcomes⟩ := settings.accomplishes_rewriteInTurns turns c cwd c.files t
  rw [h.distinctTargets_files] at htree houtcomes
  refine ⟨turns', htree, ?_⟩
  rw [files, List.forall₂_map_left_iff] at houtcomes
  obtain ⟨hlength, htreated⟩ := List.forall₂_iff_zip.mp houtcomes
  refine List.forall₂_iff_zip.mpr ⟨hlength, fun {set outcome} hmem => ?_⟩
  have hset := htreated hmem
  rwa [h.setFor_file (List.of_mem_zip hmem).1] at hset

/-- In a catalog no file is bound twice, and the sets stand in the order in which they were
inserted, none lost and none doubled. A file is found under all its spellings and no others, with or
without an index. A run that is told no targets applies each set to its own file, in this order, and
where workers take turns, each outcome is what comes of the set that its file is bound to. -/
theorem Built.applies_bound_sets (h : c.Built) :
    (∀ sets, Catalog.ofRuleSets sets = .ok c → c.sets = sets ∧
      ∃ k, IndexedCatalog.ofRuleSets sets = .ok k ∧ k.Serves c) ∧
    (∀ d, Catalog.ofDefinition d = .ok c → d.sets = .ok c.sets ∧
      ∃ k, IndexedCatalog.ofDefinition d = .ok k ∧ k.Serves c) ∧
    (c.sets.Pairwise fun s s' => s.file.normalize ≠ s'.file.normalize) ∧
    (∀ q s, c.get? q = some s ↔ s ∈ c.sets ∧ s.file.normalize = q.normalize) ∧
    (∀ q, (c.get? q).isSome ↔ ∃ s ∈ c.sets, s.file.normalize = q.normalize) ∧
    c.files = c.sets.map RuleSet.file ∧
    ∀ (settings : Settings) (checker : Checker) (m : Machine), settings.targets = [] →
      let targets := settings.defaultTargets c
      let result := rewriteSets m.cwd settings.base settings.mode c.sets m.tree
      targets = c.files ∧
      settings.rewrite c m.cwd targets m.tree = result ∧
      (settings.run checker c targets m []).1.outcomes = result.2 ∧
      ∀ turns, ∃ turns', let start : Start := ⟨c, m.cwd, settings.base, settings.mode, m.tree⟩
        (settings.rewriteInTurns turns c m.cwd targets m.tree).1 =
          (start.after turns' targets).1 ∧
        List.Forall₂ (fun set outcome => Treated (start.Meets turns' targets) m.cwd settings.base
          settings.mode set set.file outcome) c.sets
          (settings.run checker c targets m turns).1.outcomes := by
  refine ⟨fun sets hsets => ⟨sets_of_ofRuleSets hsets, ?_⟩,
    fun d hd => ⟨sets_of_ofDefinition hd, ?_⟩, h.pairwise, fun q s => h.get?_eq_some,
    fun q => get?_isSome, rfl, fun settings checker m htargets => ?_⟩
  · exact IndexedCatalog.exists_serves ((IndexedCatalog.catalog_ofRuleSets sets).trans hsets)
  · exact IndexedCatalog.exists_serves ((IndexedCatalog.catalog_ofDefinition d).trans hd)
  · have hfiles : settings.defaultTargets c = c.files := by
      rw [Settings.defaultTargets, htargets]
      rfl
    have hrewrite : settings.rewrite c m.cwd c.files m.tree =
        rewriteSets m.cwd settings.base settings.mode c.sets m.tree := by
      rw [Settings.rewrite_eq, h.distinctTargets_files]
      exact rewriteEach_files (fun s hs => h.setFor_file hs) m.cwd settings.base settings.mode _
    dsimp only
    rw [hfiles]
    exact ⟨rfl, hrewrite, congrArg Prod.snd hrewrite,
      fun turns => h.treated_files settings turns m.cwd m.tree⟩

/-- A file that is bound under one spelling is found under another, and a run that is told no
targets takes it under the first. -/
theorem dotted_file_bound :
    let store : RuleSet := ⟨"store", ⟨"src/store.rs"⟩, [Rule.letterRule "store" 'x' "y"]⟩
    let error : RuleSet := ⟨"error", ⟨"./src/error.rs"⟩, [Rule.letterRule "error" 'y' "z"]⟩
    let settings : Settings := .ofConfig ⟨"/work"⟩ {}
    ∃ c, Catalog.ofRuleSets [store, error] = .ok c ∧ c.get? ⟨"src//error.rs"⟩ = some error ∧
      ∀ checker m, (settings.run checker c (settings.defaultTargets c) m []).1.outcomes =
        (rewriteSets m.cwd settings.base settings.mode [store, error] m.tree).2 := by
  intro store error settings
  have hsets : Catalog.ofRuleSets [store, error] = .ok ⟨[store, error], []⟩ :=
    ofRuleSets_eq_ok (List.pairwise_pair.mpr (by decide))
  obtain ⟨-, -, -, hget, -, -, hrun⟩ := Built.applies_bound_sets (.ofRuleSets hsets)
  refine ⟨_, hsets, (hget _ _).mpr ⟨?_, ?_⟩, fun checker m => ?_⟩
  · exact List.mem_cons_of_mem _ List.mem_cons_self
  · decide
  · exact (hrun settings checker m rfl).2.2.1

end Catalog

end Amend
