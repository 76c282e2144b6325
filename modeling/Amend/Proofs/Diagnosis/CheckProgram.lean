import Amend.Proofs.Diagnosis.Ready
import Amend.Proofs.FileTree.Relative
import Amend.Shell.Program

/-!
# The program of a check command

The check of a run is started in the directory of the project, so that a program with a slash in
its name is looked for from there. The diagnosis of a project looks for it from its own working
directory instead. Its verdict is right exactly if the program is a file from both directories or
from neither, as it is where the working directory is that of the project and for programs that
start at the root (`Machine.diagnoseCommand_right_iff`). From a directory below that of the project
a program that is there may not be found (`misplacedCheck_notFound`).
-/

set_option autoImplicit false

namespace Amend

/-! ## Names with a slash -/

namespace Path

variable {p : Path}

theorem exists_ends_of_slash (h : '/' ∈ p.text.toList) :
    ∃ first middle last, split p.text.toList = first :: (middle ++ [last]) := by
  cases hs : split p.text.toList with
  | nil => exact absurd hs (split_ne_nil _)
  | cons first rest =>
    have hrest : rest ≠ [] := by
      rintro rfl
      have hjoin := join_split p.text.toList
      rw [hs] at hjoin
      have hmem := slash_notMem_of_mem_split p.text.toList first (hs ▸ List.mem_cons_self)
      exact hmem (by rwa [show first = p.text.toList from hjoin])
    exact ⟨first, rest.dropLast, rest.getLast hrest, by rw [List.dropLast_concat_getLast hrest]⟩

theorem asksDirectory_of_idle {first last : List Char} {middle : List (List Char)}
    (hs : split p.text.toList = first :: (middle ++ [last])) (h : isIdle last = true) :
    p.asksDirectory = true := by
  unfold asksDirectory steps
  rcases (by simpa [isIdle] using h : last = [] ∨ last = ['.']) with rfl | rfl
  · have hslash : p.endsInSlash = true := by
      rw [endsInSlash, ← join_split p.text.toList, hs, ← List.cons_append,
        join_append (List.cons_ne_nil first middle) (List.cons_ne_nil [] [])]
      simp [join]
    simp [hslash]
  · have hlast : p.innerSteps.getLast? = some .stay := by
      rw [innerSteps_eq, hs, ← List.cons_append, stepsOf_append]
      simp [stepsOf, PathStep.ofPiece]
    split <;> simp [hlast]

/-- A path with a slash takes two steps at least, unless it asks for a directory. -/
theorem one_lt_stepCount (h : '/' ∈ p.text.toList) (hd : p.asksDirectory = false) :
    1 < p.stepCount := by
  obtain ⟨first, middle, last, hs⟩ := exists_ends_of_slash h
  have hlast : isIdle last = false := by
    rw [← Bool.not_eq_true]
    intro hidle
    rw [asksDirectory_of_idle hs hidle] at hd
    cases hd
  have hsegments : p.segments =
      [first].filter (!isIdle ·) ++ (middle.filter (!isIdle ·) ++ [last]) := by
    rw [segments, hs, ← List.singleton_append, List.filter_append, List.filter_append]
    simp [hlast]
  rw [stepCount, parts, hs, hsegments]
  by_cases hhead : (p.isAbsolute || first == ['.']) = true
  · simp only [hhead, if_true, List.length_append, Option.toList_some, List.length_singleton]
    omega
  · simp only [Bool.or_eq_true, beq_iff_eq, not_or, Bool.not_eq_true] at hhead
    have hfirst : isIdle first = false := by
      simpa [isIdle, hhead.2] using split_head_ne_nil hhead.1 hs
    simp [hhead, hfirst]

end Path

/-! ## Looking for a program -/

/-- The first word of a command line. -/
def programOf (commandLine : String) : Path :=
  ⟨.ofList ((commandLine.toList.dropWhile Unicode.isSpace).takeWhile (!Unicode.isSpace ·))⟩

namespace Machine

variable {m : Machine} {commandLine : String} {root program : Path} {config : Config}

/-- A program with a slash in its name is looked for where its name leads. -/
theorem findsProgramOf_of_slash (h : '/' ∈ (programOf commandLine).text.toList) :
    m.findsProgramOf commandLine = m.isFile (programOf commandLine) := by
  have hne := List.ne_nil_of_mem h
  have hword : ((commandLine.toList.dropWhile Unicode.isSpace).takeWhile
      (!Unicode.isSpace ·)).isEmpty = false := by
    simpa [programOf] using hne
  unfold findsProgramOf
  simp only [hword, Bool.false_eq_true, if_false]
  change (if 1 < (programOf commandLine).stepCount then m.isFile (programOf commandLine) else _) = _
  split
  · rfl
  · next hcount =>
    have hd : (programOf commandLine).asksDirectory = true := by
      by_contra hd
      exact hcount (Path.one_lt_stepCount h (Bool.not_eq_true _ ▸ hd))
    have hnone : ∀ dir, m.isFile (dir ++ programOf commandLine) = false := fun dir =>
      FileTree.isFile_of_asksDirectory ((Path.asksDirectory_append hne).trans hd)
    rw [show m.isFile (programOf commandLine) = false from FileTree.isFile_of_asksDirectory hd]
    cases m.searchPath with
    | none => rfl
    | some searchPath => simpa [programOf] using fun dir _ => hnone dir

/-- What the shell of a check finds under such a name is what stands where the name leads. -/
theorem ofName_of_slash (h : '/' ∈ program.text.toList) :
    Shell.ProgramFile.ofName m program.text = Shell.ProgramFile.ofPath m program := by
  unfold Shell.ProgramFile.ofName
  rw [if_pos (by simpa using h)]

/-- A check in `root` would start a file: from the directory where the shell is started, the
program is one. -/
def StartsFile (m : Machine) (root program : Path) : Prop :=
  ∃ dir, m.tree.directoryAt m.cwd root = .ok dir ∧ m.tree.isFile dir program = true

/-- The diagnosis of a project finds that its check command is there. -/
def Approves (m : Machine) (config : Config) : Prop :=
  m.diagnoseCommand config = .found config.checkCommand

theorem approves_iff (hverify : config.verify = true) :
    m.Approves config ↔ m.findsProgramOf config.checkCommand = true := by
  unfold Approves diagnoseCommand
  rw [hverify]
  cases m.findsProgramOf config.checkCommand <;> simp

theorem startsFile_iff {dir : Location} (h : m.tree.directoryAt m.cwd root = .ok dir) :
    m.StartsFile root program ↔ m.tree.isFile dir program = true := by
  constructor
  · rintro ⟨dir', hdir', hfile⟩
    cases h.symm.trans hdir'
    exact hfile
  · exact fun hfile => ⟨dir, h, hfile⟩

/-- The verdict on a check command whose program has a slash in its name says whether the program
is a file from the working directory, whichever the project is. It is right about the file that a
check would start exactly if the program is a file from the directory of the project as well or
from neither. So it is where the diagnosis is made in that directory, and for a program that starts
at the root, about which the verdict is the same everywhere. To look for the program in the
project, as for targets, would be right but for the limits on paths. -/
theorem diagnoseCommand_right_iff (m : Machine) (root : Path) (config : Config)
    (hconfig : m.config root = .ok config) (hverify : config.verify = true)
    (hslash : '/' ∈ (programOf config.checkCommand).text.toList) :
    let program := programOf config.checkCommand
    (∃ file catalog targets,
      m.diagnose root = .complete file catalog targets (m.diagnoseCommand config)) ∧
    (m.Approves config ↔ m.isFile program = true) ∧
    (program.isAbsolute = true →
      ∀ cwd, ({ m with cwd } : Machine).Approves config ↔ m.Approves config) ∧
    ∀ dir, m.tree.directoryAt m.cwd root = .ok dir →
      let inside : Machine := { m with cwd := dir }
      Shell.ProgramFile.ofName inside program.text = Shell.ProgramFile.ofPath inside program ∧
      ((m.Approves config ↔ m.StartsFile root program) ↔
        m.isFile program = inside.isFile program) ∧
      (inside.Approves config ↔ m.StartsFile root program) ∧
      (program.isAbsolute = true → (m.Approves config ↔ m.StartsFile root program)) ∧
      (m.isFile (root ++ program) = true → m.StartsFile root program) ∧
      (m.StartsFile root program → (root ++ program).fault? = none →
        m.tree.entryAt m.cwd (root ++ program) ≠ .error .tooManyLinks →
          m.isFile (root ++ program) = true) := by
  intro program
  have hverdict (m : Machine) : m.Approves config ↔ m.isFile program = true := by
    rw [approves_iff hverify, findsProgramOf_of_slash hslash]
  have heverywhere (habsolute : program.isAbsolute = true) (cwd : Location) :
      ({ m with cwd } : Machine).isFile program = m.isFile program :=
    FileTree.isFile_of_isAbsolute habsolute cwd m.cwd
  obtain ⟨found, hfound, rfl⟩ := config_eq_ok_iff.mp hconfig
  refine ⟨⟨_, _, _, diagnose_of_ok hfound⟩, hverdict m, fun habsolute cwd => ?_, fun dir hdir => ?_⟩
  · rw [hverdict, hverdict, heverywhere habsolute]
  · intro inside
    have hstarts : m.StartsFile root program ↔ inside.isFile program = true := startsFile_iff hdir
    refine ⟨ofName_of_slash hslash, ?_, ?_, fun habsolute => ?_, fun hfile => ?_,
      fun hfile hfault hlinks => ?_⟩
    · rw [hverdict, hstarts]
      exact Bool.eq_iff_iff.symm
    · rw [hverdict, hstarts]
    · rw [hverdict, hstarts, show inside.isFile program = _ from heverywhere habsolute dir]
    · exact hstarts.mpr
        (FileTree.isFile_of_isFile_append hdir (List.ne_nil_of_mem hslash) hfile)
    · exact FileTree.isFile_append_of_isFile hdir (hstarts.mp hfile) hfault hlinks

/-! ## A program that is not found -/

/-- The settings of a project with a program of its own that checks it. -/
def misplacedConfig : Config :=
  { checkCommand := "./check.sh" }

/-- The text of these settings. -/
def misplacedSettings : String :=
  "check_command = \"./check.sh\"\n"

/-- A project that is diagnosed from a directory in it. -/
def misplacedCheck : Machine where
  tree := ⟨[(["p"], .dir false), (["p", "src"], .dir false),
    (["p", ".sentinel-fix.toml"], .file ⟨misplacedSettings.toUTF8, 0o644, none⟩),
    (["p", "check.sh"], .file ⟨"#!/bin/sh\n".toUTF8, 0o755, none⟩)]⟩
  cwd := ["p", "src"]
  searchPath := none

open FileTree in
theorem misplacedCheck_config : misplacedCheck.config ⟨"/p"⟩ = .ok misplacedConfig := by
  have he : misplacedCheck.tree.entryAt misplacedCheck.cwd (configPath ⟨"/p"⟩) =
      .ok (["p", ".sentinel-fix.toml"], .file ⟨misplacedSettings.toUTF8, 0o644, none⟩) :=
    entryAt_eq_ok.mpr ⟨Path.fault?_eq_none.mpr (by decide), rfl, 40,
      .step (.into rfl (by decide) rfl nofun) (.single (.into rfl (by decide) rfl nofun))⟩
  exact config_of_readText (readText_of_entryAt he) (by decide +kernel)

open FileTree in
/-- A check of the project would start the program, but the diagnosis finds it from the directory of
the project only. -/
theorem misplacedCheck_notFound :
    misplacedCheck.StartsFile ⟨"/p"⟩ (programOf "./check.sh") ∧
      ¬ misplacedCheck.Approves misplacedConfig ∧
      ({ misplacedCheck with cwd := ["p"] } : Machine).Approves misplacedConfig := by
  have hdir : misplacedCheck.tree.directoryAt ["p", "src"] ⟨"/p"⟩ = .ok ["p"] :=
    directoryAt_eq_ok.mpr ⟨false, entryAt_eq_ok.mpr ⟨Path.fault?_eq_none.mpr (by decide), rfl, 40,
      .single (.into rfl (by decide) rfl nofun)⟩⟩
  have hprogram : misplacedCheck.tree.isFile ["p"] (programOf "./check.sh") = true :=
    isFile_iff.mpr ⟨_, _, entryAt_eq_ok.mpr ⟨Path.fault?_eq_none.mpr (by decide), rfl, 40,
      .step (.stay rfl) (.single (.into rfl (by decide) rfl nofun))⟩⟩
  have hmissing : misplacedCheck.isFile (programOf "./check.sh") = false := by
    have hwalk : Reaches misplacedCheck.tree ((programOf "./check.sh").stage linkLimit ["p", "src"])
        ⟨40, ["p", "src"], [.into "check.sh"]⟩ := .single (.stay rfl)
    have hend : Halts misplacedCheck.tree ⟨40, ["p", "src"], [.into "check.sh"]⟩
        (.ok (.free ["p", "src"] "check.sh")) := .missing rfl (by decide) rfl
    have hfault : (programOf "./check.sh").fault? = none := Path.fault?_eq_none.mpr (by decide)
    simp only [isFile, show misplacedCheck.cwd = ["p", "src"] from rfl, FileTree.isFile, entryAt,
      follow_eq hfault, hwalk.ending_eq, hend.ending_eq]
  have hstarts : misplacedCheck.StartsFile ⟨"/p"⟩ (programOf "./check.sh") :=
    ⟨["p"], hdir, hprogram⟩
  obtain ⟨-, hverdict, -, hinside⟩ := diagnoseCommand_right_iff misplacedCheck ⟨"/p"⟩
    misplacedConfig misplacedCheck_config rfl (by decide)
  refine ⟨hstarts, fun happroves => ?_, (hinside ["p"] hdir).2.2.1.mpr hstarts⟩
  exact absurd (hverdict.mp happroves) (Bool.eq_false_iff.mp hmissing)

end Machine

end Amend
