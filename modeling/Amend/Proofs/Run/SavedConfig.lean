import Amend.Proofs.FileTree.Writing
import Amend.Proofs.Path
import Amend.Proofs.Toml.Document
import Amend.Run.Project

/-!
# Settings that are saved are found again

The text that is written for settings is read as these settings (`ofText?_toText`), whatever
characters their texts hold, and what is read is only brought up to date, which changes nothing the
second time (`migrate_migrate`). So settings come back from the configuration file
(`config?_of_saveConfig`), and settings that came from one come back unchanged.
-/

set_option autoImplicit false

namespace Amend

variable {c : Config} {m : Machine} {root : Path} {tree : FileTree} {text : String}

namespace Config

open Toml

/-! ## Bringing up to date -/

theorem isBlank_defaultCheckCommand : Unicode.isBlank defaultCheckCommand = false := by
  decide

@[simp]
theorem migrate_migrate (c : Config) : c.migrate.migrate = c.migrate := by
  unfold migrate
  dsimp only
  split <;> simp [isBlank_defaultCheckCommand]

theorem ofText?_eq (text : String) :
    ofText? text = ((Toml.read text).bind ofMembers?).map migrate := by
  unfold ofText?
  cases Toml.read text with
  | error e => rfl
  | ok members =>
    simp only [bind, Except.bind]
    cases ofMembers? members <;> rfl

theorem migrate_of_ofText? (h : ofText? text = .ok c) : c.migrate = c := by
  rw [ofText?_eq] at h
  cases hread : (Toml.read text).bind ofMembers? with
  | error e =>
    rw [hread] at h
    cases h
  | ok settings =>
    rw [hread] at h
    cases h
    exact migrate_migrate settings

/-! ## From settings to their text and back -/

/-- The members of the table that is written for settings. -/
def members (c : Config) : List (String × Value) :=
  [("version", .text c.version), ("check_command", .text c.checkCommand),
    ("targets", .array (c.targets.map fun p => .text p.text))] ++
  c.catalog.toList.map (fun file => ("catalog", .text file.text)) ++
  [("parallel", .bool c.parallel), ("verify", .bool c.verify)]

/-- The text of settings is made of lines, one for each member. -/
theorem lines_toText (c : Config) : Lines c.toText.toList c.members := by
  have hflags : Lines (line "parallel" (writeBool c.parallel) ++ line "verify" (writeBool c.verify))
      [("parallel", .bool c.parallel), ("verify", .bool c.verify)] := by
    rw [← List.append_nil (line "verify" _)]
    exact .cons (by decide) (written_bool _) (.cons (by decide) (written_bool _) .nil)
  have htargets := written_texts (c.targets.map Path.text)
  rw [List.map_map] at htargets
  rw [toText, String.toList_ofList, members]
  simp only [List.append_assoc]
  refine .cons (by decide) (written_text _) (.cons (by decide) (written_text _)
    (.cons (by decide) htargets ?_))
  cases c.catalog with
  | none => exact hflags
  | some file => exact .cons (by decide) (written_text _) hflags

theorem nodup_members (c : Config) : (c.members.map Prod.fst).Nodup := by
  cases hfile : c.catalog <;> simp [members, hfile]

theorem textsOfValues_paths (key : String) (paths : List Path) :
    textsOfValues key (paths.map fun p => .text p.text) = .ok (paths.map Path.text) := by
  induction paths with
  | nil => rfl
  | cons p paths ih =>
    rw [List.map_cons, textsOfValues, ih]
    rfl

theorem ofMembers?_members (c : Config) :
    ofMembers? (c.members.map fun m => (m.1, .value m.2)) = .ok c := by
  obtain ⟨version, checkCommand, targets, catalog, parallel, verify⟩ := c
  have htargets : (targets.map Path.text).map Path.mk = targets := by
    rw [List.map_map]
    exact List.map_id targets
  cases catalog <;>
    simp only [ofMembers?, members, setting, List.map, Option.toList, List.cons_append,
      List.nil_append, List.lookup_cons, List.lookup_nil, String.reduceBEq, textOf, boolOf,
      textsOf, textsOfValues_paths, htargets, Functor.map, Except.map, Option.map, bind,
      Except.bind, pure, Except.pure]

/-- The text of settings is read as the settings, brought up to date. -/
theorem ofText?_toText (c : Config) : ofText? c.toText = .ok c.migrate := by
  have hread := read_lines (lines_toText c) (nodup_members c)
  rw [String.ofList_toList] at hread
  rw [ofText?_eq, hread, Except.bind, ofMembers?_members]
  rfl

end Config

namespace Machine

theorem migrate_of_config? (h : m.config? root = .ok (some c)) : c.migrate = c := by
  unfold config? at h
  dsimp only at h
  split at h
  · split at h
    · cases h
    · split at h
      · cases h
      · next hc =>
        cases h
        exact Config.migrate_of_ofText? hc
  · cases h

theorem exists_saveConfig (h : m.config? root = .ok (some c)) (c' : Config) :
    ∃ tree, m.saveConfig root c' = .ok tree := by
  unfold config? at h
  dsimp only at h
  split at h
  · split at h
    · cases h
    · next htext =>
      obtain ⟨loc, d, hloc, -⟩ := FileTree.exists_entryAt_of_readText htext
      exact FileTree.exists_write hloc _
  · cases h

/-- The settings that are found are those that were saved, brought up to date. -/
theorem config?_of_saveConfig (h : m.saveConfig root c = .ok tree) :
    ({ m with tree } : Machine).config? root = .ok (some c.migrate) := by
  have hread := FileTree.readText_write h
  have hexists : ({ m with tree } : Machine).pathExists (configPath root) = true :=
    FileTree.pathExists_of_readText hread
  simp only [config?, hexists, hread, if_true, Config.ofText?_toText]

/-- Settings that were saved are found with the current version and, where theirs is blank, the
default check command, and are otherwise the same. Only what stands in the tree can refuse them.
Settings that were found in a file, or read from any text, come back as they are. -/
theorem savedConfig_found :
    (∀ (m : Machine) (root : Path) (c : Config) (tree : FileTree),
      m.saveConfig root c = .ok tree →
        ({ m with tree } : Machine).config? root = .ok (some
          { version := currentVersion
            checkCommand :=
              if Unicode.isBlank c.checkCommand then defaultCheckCommand else c.checkCommand
            targets := c.targets
            catalog := c.catalog
            parallel := c.parallel
            verify := c.verify })) ∧
    (∀ (m : Machine) (root : Path) (c c' : Config) (e : FileError),
      m.saveConfig root c = .error e → m.saveConfig root c' = .error e) ∧
    (∀ (m : Machine) (root : Path) (c : Config), m.config? root = .ok (some c) →
      ∃ tree, m.saveConfig root c = .ok tree ∧
        ({ m with tree } : Machine).config? root = .ok (some c)) ∧
    ∀ (text : String) (c : Config),
      Config.ofText? text = .ok c → Config.ofText? c.toText = .ok c := by
  refine ⟨fun m root c tree h => config?_of_saveConfig h, ?_, fun m root c h => ?_,
    fun text c h => ?_⟩
  · exact fun m root c c' e h => FileTree.write_error h _
  · obtain ⟨tree, htree⟩ := exists_saveConfig h c
    have := config?_of_saveConfig htree
    rw [migrate_of_config? h] at this
    exact ⟨tree, htree, this⟩
  · rw [Config.ofText?_toText, Config.migrate_of_ofText? h]

/-- A directory without a configuration file. -/
def freshProject : Machine where
  tree := ⟨[(["p"], .dir false)]⟩
  cwd := []
  searchPath := none

/-- Old settings whose texts hold quotes of both kinds, backslashes, line ends and a control
character. -/
def oldConfig : Config where
  version := "0.1.0"
  checkCommand := " \t"
  targets := [⟨"a\"\"\"\"'''\\.rs"⟩, ⟨"'\n\x07\""⟩]
  catalog := some ⟨"\"\"\n'"⟩

theorem follow_freshProject :
    freshProject.tree.follow [] (configPath ⟨"/p"⟩) =
      .ok (.free ["p"] ".sentinel-fix.toml") := by
  have hfault : (configPath ⟨"/p"⟩).fault? = none := Path.fault?_eq_none.mpr (by decide)
  have hr : FileTree.Reaches freshProject.tree ((configPath ⟨"/p"⟩).stage FileTree.linkLimit [])
      ⟨40, ["p"], [.into ".sentinel-fix.toml"]⟩ :=
    .single (.into rfl (by decide) rfl nofun)
  rw [FileTree.follow_eq hfault, hr.ending_eq]
  exact (FileTree.Halts.missing rfl (by decide) rfl).ending_eq

theorem exists_saveConfig_freshProject (c : Config) :
    ∃ tree, freshProject.saveConfig ⟨"/p"⟩ c = .ok tree :=
  ⟨_, by
    unfold saveConfig FileTree.write
    rw [show freshProject.cwd = [] from rfl, follow_freshProject]
    rfl⟩

/-- In a fresh directory old settings are found brought up to date, and stay so when they are saved
again. -/
theorem oldConfig_found :
    ∃ tree tree', freshProject.saveConfig ⟨"/p"⟩ oldConfig = .ok tree ∧
      ({ freshProject with tree } : Machine).saveConfig ⟨"/p"⟩ oldConfig.migrate = .ok tree' ∧
      ({ freshProject with tree := tree' } : Machine).config? ⟨"/p"⟩ = .ok (some
        { oldConfig with version := currentVersion, checkCommand := defaultCheckCommand }) := by
  obtain ⟨tree, htree⟩ := exists_saveConfig_freshProject oldConfig
  have hfound := savedConfig_found.1 freshProject ⟨"/p"⟩ oldConfig tree htree
  obtain ⟨tree', htree', hfound'⟩ := savedConfig_found.2.2.1 _ _ _ hfound
  exact ⟨tree, tree', htree, htree', hfound'⟩

end Machine

end Amend
