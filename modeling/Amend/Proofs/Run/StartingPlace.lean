import Amend.Proofs.Run.ExitCode
import Amend.Proofs.Run.Rooted

/-!
# Where a run is started

Without a base of its own a task works on the project of the nearest directory with a configuration
file, from the working directory upwards. Below this directory, as far as no other configuration
file is nearer, it finds it from everywhere (`Machine.projectAbove?_eq`). As it is found by an
absolute path and all that a run reads and writes is named from there, the task is the same, started
anywhere below (`Machine.undertake_from_below`).
-/

set_option autoImplicit false

namespace Amend

/-! ## Going upwards -/

namespace Location

variable {loc : Location} {name : String}

/-- The names of a location are names of entries: each is one piece of a path, and leads
somewhere. -/
def Proper (loc : Location) : Prop :=
  ∀ name ∈ loc, Path.isIdle name.toList = false ∧ '/' ∉ name.toList

instance : Decidable (Proper loc) :=
  inferInstanceAs (Decidable (∀ name ∈ loc, _))

theorem isAbsolute_toPath (loc : Location) : loc.toPath.isAbsolute = true := by
  simp [toPath, Path.ofSegments, Path.isAbsolute]

theorem split_toPath (h : Proper loc) (hne : loc ≠ []) :
    Path.split loc.toPath.text.toList = [] :: loc.map String.toList := by
  have hslash : ∀ piece ∈ loc.map String.toList, '/' ∉ piece := by
    intro piece hp
    obtain ⟨name, hname, rfl⟩ := List.mem_map.mp hp
    exact (h name hname).2
  rw [toPath, Path.ofSegments, if_pos rfl, String.toList_ofList, Path.split, if_pos rfl,
    Path.split_join (by simpa using hne) hslash]

theorem trimIdle_map (h : Proper loc) :
    Path.trimIdle (loc.map String.toList) = loc.map String.toList := by
  rcases List.eq_nil_or_concat' loc with rfl | ⟨init, last, rfl⟩
  · rfl
  · have hlast := (h last (by simp)).1
    simp [Path.trimIdle, hlast]

theorem parent?_toPath (h : Proper (loc ++ [name])) :
    (Location.toPath (loc ++ [name])).parent? = some loc.toPath := by
  have hloc : Proper loc := fun n hn => h n (List.mem_append_left _ hn)
  have hlast := (h name (by simp)).1
  have hparts : (Location.toPath (loc ++ [name])).parts =
      (some [], loc.map String.toList ++ [name.toList]) := by
    rw [Path.parts, split_toPath h (by simp)]
    simp [isAbsolute_toPath, hlast]
  rw [Path.parent?_of_parts hparts, trimIdle_map hloc, toPath, Path.ofSegments]
  rcases eq_or_ne loc [] with rfl | hne
  · rfl
  · simp [hne, Path.join_cons]

theorem length_le_join (pieces : List (List Char)) :
    pieces.length ≤ (Path.join pieces).length + 1 := by
  induction pieces with
  | nil => exact Nat.zero_le _
  | cons piece pieces ih =>
    rcases eq_or_ne pieces [] with rfl | hne
    · simp
    · rw [Path.join_cons hne]
      simp only [List.length_cons, List.length_append]
      omega

theorem length_le_toPath (loc : Location) : loc.length ≤ loc.toPath.text.length := by
  have hle := length_le_join (loc.map String.toList)
  rw [List.length_map] at hle
  rw [toPath, Path.ofSegments, if_pos rfl, String.length_ofList]
  exact hle

end Location

/-! ## The nearest project -/

/-- From `root ++ names` upwards, the nearest directory with a configuration file is `root`. -/
structure FileTree.NearestProject (t : FileTree) (root names : Location) : Prop where
  proper : Location.Proper (root ++ names)
  config : t.isFile [] (configPath root.toPath) = true
  noneBelow : ∀ between, between <+: names → between ≠ [] →
    t.isFile [] (configPath (Location.toPath (root ++ between))) = false

theorem isAbsolute_configPath (loc : Location) : (configPath loc.toPath).isAbsolute = true :=
  Path.isAbsolute_append_left loc.isAbsolute_toPath _

namespace FileTree.NearestProject

variable {t : FileTree} {root names : Location} {name : String} {fuel : Nat}

theorem of_append (h : t.NearestProject root (names ++ [name])) : t.NearestProject root names where
  proper n hn := h.proper n (by rw [← List.append_assoc]; exact List.mem_append_left _ hn)
  config := h.config
  noneBelow between hb := h.noneBelow between (hb.trans (List.prefix_append _ _))

theorem root_root (h : t.NearestProject root names) : t.NearestProject root [] where
  proper n hn := h.proper n (List.mem_append_left _ (by simpa using hn))
  config := h.config
  noneBelow between hb hne := absurd (List.prefix_nil.mp hb) hne

/-- The search upwards passes the directories below the project and ends there. -/
theorem find?_ancestorsWithin (h : t.NearestProject root names) (cwd : Location)
    (hfuel : names.length ≤ fuel) :
    ((Location.toPath (root ++ names)).ancestorsWithin fuel).find?
      (fun dir => t.isFile cwd (configPath dir)) = some root.toPath := by
  -- on the names, of which each is one step up
  induction names using List.reverseRecOn generalizing fuel with
  | nil =>
    have hfound := (isFile_of_isAbsolute (isAbsolute_configPath root) cwd []).trans h.config
    rw [List.append_nil]
    cases fuel with
    | zero => exact List.find?_cons_of_pos (p := fun dir => t.isFile cwd (configPath dir)) hfound
    | succ => exact List.find?_cons_of_pos (p := fun dir => t.isFile cwd (configPath dir)) hfound
  | append_singleton names name ih =>
    obtain ⟨fuel, rfl⟩ : ∃ n, fuel = n + 1 := ⟨fuel - 1, by simp at hfuel; omega⟩
    have hproper := h.proper
    have hnot := h.noneBelow _ (List.prefix_refl _) (by simp)
    rw [← isFile_of_isAbsolute (isAbsolute_configPath _) cwd []] at hnot
    rw [← List.append_assoc] at hproper hnot ⊢
    rw [Path.ancestorsWithin, Location.parent?_toPath hproper, List.find?_cons, hnot]
    exact ih h.of_append (by simpa using hfuel)

end FileTree.NearestProject

/-! ## Tasks in a directory that is named from the root -/

/-- The catalog that is named, by the request or else by the settings, is looked for in the
project. -/
theorem RunRequest.catalog_settings (request : RunRequest) (root : Path) (config : Config) :
    (request.settings root config).catalog =
      (request.catalog <|> config.catalog).elim .builtIn fun file => .file (root ++ file) := by
  unfold RunRequest.settings Settings.ofConfig
  cases request.catalog with
  | some file => rfl
  | none => cases config.catalog <;> rfl

theorem isAbsolute_catalog {dir : Path} (h : dir.isAbsolute = true) {named : Option Path}
    {path : Path}
    (hsource : named.elim .builtIn (fun file => CatalogSource.file (dir ++ file)) = .file path) :
    path.isAbsolute = true := by
  cases named with
  | none => cases hsource
  | some file =>
    cases hsource
    exact Path.isAbsolute_append_left h file

namespace Machine

variable {m : Machine} {root names : Location} {checker : Checker} {verbose : Bool}
  {turns : List Turn}

/-- From anywhere below, the project is found by its absolute path. -/
theorem projectRoot_eq (h : m.tree.NearestProject root names) :
    ({ m with cwd := root ++ names } : Machine).projectRoot none = root.toPath := by
  have hfuel : names.length ≤ (Location.toPath (root ++ names)).text.length := by
    refine Nat.le_trans ?_ (Location.length_le_toPath _)
    simp
  have hfind : ({ m with cwd := root ++ names } : Machine).projectAbove?
      (Location.toPath (root ++ names)) = some root.toPath :=
    h.find?_ancestorsWithin (root ++ names) hfuel
  simp only [projectRoot, cwdPath, hfind, Option.getD_none, Option.getD_some]

theorem config_of_isAbsolute {dir : Path} (h : dir.isAbsolute = true) (m : Machine)
    (cwd : Location) : ({ m with cwd } : Machine).config dir = m.config dir := by
  have hpath : (configPath dir).isAbsolute = true := Path.isAbsolute_append_left h _
  simp only [config, config?, pathExists, FileTree.pathExists_of_isAbsolute hpath cwd m.cwd,
    FileTree.readText_of_isAbsolute hpath cwd m.cwd]
  rfl

theorem catalog_of_isAbsolute (source : CatalogSource)
    (h : ∀ path, source = .file path → path.isAbsolute = true) (m : Machine) (cwd : Location) :
    ({ m with cwd } : Machine).catalog source = m.catalog source := by
  cases source with
  | builtIn => rfl
  | file path => simp only [catalog, FileTree.readText_of_isAbsolute (h path rfl) cwd m.cwd]

theorem performRun_of_isAbsolute {dir : Path} (h : dir.isAbsolute = true)
    (hchecker : checker.ByDirectory) (m : Machine) (cwd : Location) (verbose : Bool)
    (request : RunRequest) (turns : List Turn) :
    (({ m with cwd } : Machine).performRun checker dir verbose request turns).on m.tree =
      (m.performRun checker dir verbose request turns).on m.tree := by
  have hsame := config_of_isAbsolute h m cwd
  cases hconfig : m.config dir with
  | error fault =>
    rw [performRun_of_config_error hconfig]
    exact performRun_of_config_error (hsame.trans hconfig)
  | ok config =>
    have hsource := catalog_of_isAbsolute (request.settings dir config).catalog
      (fun path hpath =>
        isAbsolute_catalog h ((request.catalog_settings dir config).symm.trans hpath))
      m cwd
    cases hcatalog : m.catalog (request.settings dir config).catalog with
    | error fault =>
      rw [performRun_of_catalog_error hconfig hcatalog]
      exact performRun_of_catalog_error (hsame.trans hconfig) (hsource.trans hcatalog)
    | ok catalog =>
      have hrun := Settings.run_of_isAbsolute (s := request.settings dir config) h hchecker catalog
        ((request.settings dir config).defaultTargets catalog) m cwd turns
      rw [performRun_of_ok hconfig hcatalog]
      refine (performRun_of_ok (hsame.trans hconfig) (hsource.trans hcatalog)).trans ?_
      dsimp only
      rw [hrun]

theorem performRules_of_isAbsolute {dir : Path} (h : dir.isAbsolute = true) (m : Machine)
    (cwd : Location) (other : Option Path) :
    (({ m with cwd } : Machine).performRules dir other).on m.tree =
      (m.performRules dir other).on m.tree := by
  have hsame := config_of_isAbsolute h m cwd
  cases hconfig : m.config dir with
  | error fault =>
    simp only [performRules, Undertaking.on_bind, Undertaking.on_current, Undertaking.on_ofExcept,
      hsame, hconfig, Except.mapError]
  | ok config =>
    cases other with
    | none =>
      have hsource := catalog_of_isAbsolute (Settings.ofConfig dir config).catalog
        (fun path hpath =>
          isAbsolute_catalog h ((RunRequest.catalog_settings {} dir config).symm.trans hpath)) m cwd
      simp only [performRules, Undertaking.on_bind, Undertaking.on_current,
        Undertaking.on_ofExcept, hsame, hconfig, Except.mapError, hsource]
    | some file =>
      have hsource := catalog_of_isAbsolute (.file (dir ++ file)) (fun path hpath => by
        cases hpath
        exact Path.isAbsolute_append_left h file) m cwd
      simp only [performRules, Undertaking.on_bind, Undertaking.on_current,
        Undertaking.on_ofExcept, hsame, hconfig, Except.mapError, hsource]

/-- Below the directory of a project, as far as it is the nearest one, running the project and
listing its rules does not depend on where this is asked for: the same is to be seen, the exit code
is the same, and the same tree is left, whatever turns the workers take. It is as if the directory
of the project were named. All that is read and written, and the directory of the check, is named
from there. -/
theorem undertake_from_below (m : Machine) {root names : Location}
    (h : m.tree.NearestProject root names) {checker : Checker} (hchecker : checker.ByDirectory)
    (i : Invocation) (hbase : i.base = none)
    (htask : (∃ request, i.task = .run request) ∨ ∃ other, i.task = .rules other)
    (turns : List Turn) :
    let above : Machine := { m with cwd := root }
    let below : Machine := { m with cwd := root ++ names }
    (above.projectRoot none = root.toPath ∧ below.projectRoot none = root.toPath) ∧
    (below.undertake checker i turns).on m.tree = (above.undertake checker i turns).on m.tree ∧
    (∀ machine ∈ [above, below], machine.undertake checker i turns =
      machine.undertake checker { i with base := some root.toPath } turns) ∧
    ∀ (request : RunRequest) (config : Config),
      (request.settings root.toPath config).base = root.toPath ∧
      (request.settings root.toPath config).catalog = (request.catalog <|> config.catalog).elim
        .builtIn fun file => .file (root.toPath ++ file) := by
  intro above below
  have habove : above.projectRoot none = root.toPath := by
    simpa using projectRoot_eq h.root_root
  have hbelow : below.projectRoot none = root.toPath := projectRoot_eq h
  have hroot := root.isAbsolute_toPath
  have hnamed : ∀ machine ∈ [above, below], machine.undertake checker i turns =
      machine.undertake checker { i with base := some root.toPath } turns := by
    intro machine hmachine
    have hproject : machine.projectRoot none = root.toPath := by
      rcases List.mem_pair.mp hmachine with rfl | rfl
      · exact habove
      · exact hbelow
    unfold undertake
    rw [hbase, hproject]
    rfl
  refine ⟨⟨habove, hbelow⟩, ?_, hnamed, fun request config => ⟨rfl, request.catalog_settings _ _⟩⟩
  rw [hnamed above (by simp), hnamed below (by simp)]
  rcases htask with ⟨request, hrun⟩ | ⟨other, hrules⟩
  · unfold undertake
    rw [hrun]
    exact (performRun_of_isAbsolute hroot hchecker m _ i.verbose request turns).trans
      (performRun_of_isAbsolute hroot hchecker m _ i.verbose request turns).symm
  · unfold undertake
    rw [hrules]
    exact (performRules_of_isAbsolute hroot m _ other).trans
      (performRules_of_isAbsolute hroot m _ other).symm

/-! ## An instance -/

open FileTree in
/-- A directory of a project that has no configuration file of its own. -/
theorem misplacedCheck_nearest : misplacedCheck.tree.NearestProject ["p"] ["src"] := by
  refine ⟨by decide, ?_, fun between hprefix hne => ?_⟩
  · exact isFile_iff.mpr ⟨_, _, entryAt_eq_ok.mpr ⟨Path.fault?_eq_none.mpr (by decide), rfl, 40,
      .step (.into rfl (by decide) rfl nofun) (.single (.into rfl (by decide) rfl nofun))⟩⟩
  · obtain ⟨rest, rfl, hrest⟩ := (List.prefix_cons_iff.mp hprefix).resolve_left hne
    obtain rfl := List.prefix_nil.mp hrest
    have hfault : (configPath ⟨"/p/src"⟩).fault? = none := Path.fault?_eq_none.mpr (by decide)
    have hwalk : Reaches misplacedCheck.tree ((configPath ⟨"/p/src"⟩).stage linkLimit [])
        ⟨40, ["p", "src"], [.into ".sentinel-fix.toml"]⟩ :=
      .step (.into rfl (by decide) rfl nofun) (.single (.into rfl (by decide) rfl nofun))
    have hend : Halts misplacedCheck.tree ⟨40, ["p", "src"], [.into ".sentinel-fix.toml"]⟩
        (.ok (.free ["p", "src"] ".sentinel-fix.toml")) := .missing rfl (by decide) rfl
    change misplacedCheck.tree.isFile [] (configPath ⟨"/p/src"⟩) = false
    simp only [FileTree.isFile, entryAt, follow_eq hfault, hwalk.ending_eq, hend.ending_eq]

/-- A run that is started in this directory is that of the project, with its check. -/
theorem misplacedCheck_from_below :
    misplacedCheck.projectRoot none = ⟨"/p"⟩ ∧ ∀ turns,
      (misplacedCheck.undertake Shell.verify {} turns).on misplacedCheck.tree =
        (({ misplacedCheck with cwd := ["p"] } : Machine).undertake Shell.verify {} turns).on
          misplacedCheck.tree := by
  have hbelow := undertake_from_below misplacedCheck misplacedCheck_nearest
    Shell.verify_byDirectory {} rfl (.inl ⟨{}, rfl⟩)
  exact ⟨(hbelow []).1.2, fun turns => (hbelow turns).2.1⟩

end Machine

end Amend
