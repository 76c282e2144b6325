import Amend.Invocation.Reader
import Amend.Performance
import Amend.Shell.Run

/-!
# The program

Reads the files that a command line is about, performs what it asks for, prints what is to be
seen, and writes the files that changed.
-/

set_option autoImplicit false

namespace Amend.Main

/-- The location of an absolute path on the disk. -/
def locate (path : String) : Location :=
  (Path.segments ⟨path⟩).map String.ofList

/-- The entry of a file on the disk; its permission bits are not known. -/
def readFile (loc : Location) : IO (Location × Entry) := do
  return (loc, .file { bytes := ← IO.FS.readBinFile loc.toPath.text, mode := FileTree.newFileMode })

/-- The entries below a directory on the disk. -/
partial def survey (loc : Location) : IO (List (Location × Entry)) := do
  let here ← IO.FS.realPath loc.toPath.text
  let mut found := []
  for child in ← here.readDir do
    let loc := loc ++ [child.fileName]
    let data ← child.path.symlinkMetadata
    match data.type with
    | .dir => found := (loc, .dir false) :: (← survey loc) ++ found
    | .file => found := (← readFile loc) :: found
    | .symlink =>
      let target ← IO.FS.realPath child.path.toString
      found := (loc, .link ⟨target.toString⟩) :: found
    | .other => pure ()
  return found

/-- The directories on the way to a location, and that at the location. -/
def way (loc : Location) : List (Location × Entry) :=
  (List.range loc.length).map fun n => (loc.take (n + 1), .dir false)

/-- The programs in a directory on the disk. -/
def surveyPrograms (dir : String) : IO (List (Location × Entry)) := do
  try
    let here ← IO.FS.realPath dir
    let loc := locate dir
    let mut found := way loc
    for child in ← here.readDir do
      found := (loc ++ [child.fileName], .file { bytes := .empty, mode := 0o755 }) :: found
    return found
  catch _ => return []

/-- The nearest directory with a configuration file on the disk, from `dir` upwards. -/
def projectOnDisk (dir : Path) : IO Path := do
  for above in dir.ancestors do
    try
      let file ← IO.FS.realPath (configPath above).text
      if (← file.metadata).type == .file then
        return above
    catch _ => pure ()
  return dir

/-- What a command line is about, as it stands on the disk. -/
def surroundings (i : Invocation) : IO Machine := do
  let cwd ← IO.FS.realPath "."
  let project ← projectOnDisk ⟨cwd.toString⟩
  let mut entries := [(["dev", "null"], .file { bytes := .empty, mode := 0o666 })]
  let searchPath ← IO.getEnv "PATH"
  for dir in Machine.directories (searchPath.getD "") do
    entries := entries ++ (← surveyPrograms dir.text)
  for dir in [i.base.getD project, ⟨cwd.toString⟩] do
    try
      let root ← IO.FS.realPath dir.text
      let loc := locate root.toString
      if !entries.any (·.1 = loc) then
        entries := way loc ++ (← survey loc) ++ entries
    catch _ => pure ()
  return ⟨⟨entries⟩, locate cwd.toString, searchPath⟩

/-- Writes the difference between two trees to the disk. -/
def store (old new : FileTree) : IO Unit := do
  for (loc, e) in old.entries do
    if (new.get? loc).isNone || (e matches .link _) && new.get? loc ≠ some e then
      IO.FS.removeFile loc.toPath.text
  for (loc, e) in new.entries do
    if old.get? loc ≠ some e then
      match e with
      | .file d => IO.FS.writeBinFile loc.toPath.text d.bytes
      | .dir _ => IO.FS.createDirAll loc.toPath.text
      | .link _ => pure ()

/-- Whether what is printed is painted. -/
def painting : IO Bool := do
  return (← (← IO.getStdout).isTty) && (← IO.getEnv "NO_COLOR").isNone

end Amend.Main

open Amend in
/-- The program: prints what the task shows, and ends with its exit code. -/
def main (args : List String) : IO UInt32 := do
  let on ← Main.painting
  match Invocation.ofArguments? args with
  | .error u =>
    if u.isInformation then IO.print u.message else IO.eprint u.message
    return u.exitCode.toUInt32
  | .ok i =>
    let m ← Main.surroundings i
    let (result, tree) := (m.undertake Shell.verify i []).on m.tree
    Main.store m.tree tree
    match result with
    | .error e =>
      IO.eprintln (Style.red.paint on "❌" ++ " " ++ e.message)
      return e.exitCode.toUInt32
    | .ok display =>
      IO.print (Console.printed (display.screen.lines on))
      return display.exitCode.toUInt32
