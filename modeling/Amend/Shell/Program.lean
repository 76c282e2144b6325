import Amend.Shell.State

/-!
# Programs

The programs that check commands use, as functions on the state of the shell, and how the file of
a program is found.
-/

set_option autoImplicit false

namespace Amend.Shell

/-- The short wording of a fault of a file operation. -/
def wording : FileError → String
  | .notFound => "No such file or directory"
  | .notADirectory => "Not a directory"
  | .isADirectory => "Is a directory"
  | .nameTooLong => "File name too long"
  | .tooManyLinks => "Too many levels of symbolic links"
  | e => e.message

/-- Whether a condition of `test` holds; nothing if it is none. -/
def condition? (m : Machine) : List String → Option Bool
  | [] => some false
  | "!" :: rest => (condition? m rest).map (!·)
  | [s] => some (!s.isEmpty)
  | [op, s] =>
    match op with
    | "-f" => some (m.isFile ⟨s⟩)
    | "-e" => some (m.pathExists ⟨s⟩)
    | "-d" => some (m.tree.directoryAt m.cwd ⟨s⟩).isOk
    | "-n" => some (!s.isEmpty)
    | "-z" => some s.isEmpty
    | "-s" => some ((m.tree.fileAt m.cwd ⟨s⟩).toOption.any fun d => !d.bytes.isEmpty)
    | _ => none
  | [a, op, b] =>
    match op, a.toInt?, b.toInt? with
    | "=", _, _ => some (a == b)
    | "!=", _, _ => some (a != b)
    | "-eq", some a, some b => some (a == b)
    | "-ne", some a, some b => some (a != b)
    | "-lt", some a, some b => some (decide (a < b))
    | "-gt", some a, some b => some (decide (b < a))
    | "-le", some a, some b => some (decide (a ≤ b))
    | "-ge", some a, some b => some (decide (b ≤ a))
    | _, _, _ => none
  | _ => none

/-- Writes files one after the other; without files, the input. -/
def concatenate (s : State) (files : List String) : State :=
  if files.isEmpty then { s.write 1 s.input with status := 0 }
  else
    files.foldl (fun s file =>
      if file == "-" then s.write 1 s.input
      else
        match s.machine.tree.fileAt s.machine.cwd ⟨file⟩ with
        | .ok d => s.write 1 d.bytes
        | .error e => s.fail 1 s!"cat: {file}: {wording e}") { s with status := 0 }

/-- Creates files where nothing stands yet. -/
def touch (s : State) (files : List String) : State :=
  files.foldl (fun s file =>
    if s.machine.pathExists ⟨file⟩ then s
    else
      match s.machine.tree.write s.machine.cwd ⟨file⟩ .empty with
      | .ok tree => { s with machine.tree := tree }
      | .error e => s.fail 1 s!"touch: cannot touch '{file}': {wording e}") { s with status := 0 }

/-- Removes files; missing ones are no failure if `force`. -/
def remove (s : State) (force : Bool) (files : List String) : State :=
  files.foldl (fun s file =>
    let tree := s.machine.tree
    let refuse (why : String) := s.fail 1 s!"rm: cannot remove '{file}': {why}"
    match tree.followSteps false FileTree.linkLimit s.machine.cwd (Path.steps ⟨file⟩) with
    | .ok (.entry loc (.dir _)) =>
      if force then { s with machine.tree := tree.eraseAll loc } else refuse "Is a directory"
    | .ok (.entry loc _) => { s with machine.tree := tree.erase loc }
    | _ => if force then s else refuse "No such file or directory") { s with status := 0 }

/-- Whether a text occurs in a line of the files, or of the input; the lines are written unless
`quiet`. -/
def search (s : State) (quiet : Bool) (needle : String) (files : List String) : State :=
  let linesOf (bytes : ByteArray) : List String :=
    let text := (String.fromUTF8? bytes).getD ""
    let text := if text.endsWith "\n" then (text.dropEnd 1).toString else text
    if text.isEmpty then [] else text.splitOn "\n"
  let contents : List (Option String × Except FileError ByteArray) :=
    if files.isEmpty then [(none, .ok s.input)]
    else files.map fun file =>
      (if 1 < files.length then some file else none,
        (s.machine.tree.fileAt s.machine.cwd ⟨file⟩).map FileData.bytes)
  let found := contents.flatMap fun (file, content) =>
    match content with
    | .ok bytes => ((linesOf bytes).filter fun l => (l.splitOn needle).length > 1).map fun l =>
        match file with
        | some file => file ++ ":" ++ l ++ "\n"
        | none => l ++ "\n"
    | .error _ => []
  let s := if quiet then s else s.say 1 (String.join found)
  let s := (files.zip contents).foldl (fun s (file, content) =>
    match content.2 with
    | .error e => s.fail 2 s!"grep: {file}: {wording e}"
    | .ok _ => s) s
  if found.isEmpty then (if contents.any (!·.2.isOk) then s else { s with status := 1 })
  else { s with status := 0 }

/-- The names in a directory, without hidden ones. -/
def listNames (m : Machine) (dir : Path) : Except FileError (List String) :=
  (m.tree.directoryAt m.cwd dir).map fun loc =>
    let names := (m.tree.below loc).filterMap fun (below, _) =>
      match below with
      | [name] => if name.startsWith "." then none else some name
      | _ => none
    names.mergeSort fun a b => decide (a ≤ b)

/-- Lists the names in directories, or files by their own names. -/
def list (s : State) (paths : List String) : State :=
  (if paths.isEmpty then ["."] else paths).foldl (fun s path =>
    match listNames s.machine ⟨path⟩ with
    | .ok names => s.say 1 (String.join (names.map (· ++ "\n")))
    | .error _ =>
      if s.machine.pathExists ⟨path⟩ then s.say 1 (path ++ "\n")
      else s.fail 2 s!"ls: cannot access '{path}': No such file or directory")
    { s with status := 0 }

/-- The programs that stand in empty files of their own. The others are part of the shell. -/
def programs : List String :=
  ["cat", "touch", "rm", "mkdir", "grep", "ls", "sleep", "sh"]

/-- What is found under the name of a program. -/
inductive ProgramFile
  | missing
  /-- There is something, but it cannot be run. -/
  | denied
  | file (d : FileData)

namespace ProgramFile

/-- What is found at a path. -/
def ofPath (m : Machine) (path : Path) : ProgramFile :=
  match m.tree.entryAt m.cwd path with
  | .ok (_, .file d) => if d.mode &&& 0o111 = 0 then denied else file d
  | .ok _ => denied
  | .error _ => missing

/-- What is found in the first of the directories that has a program of this name. -/
def inDirectories (m : Machine) (name : String) : List Path → ProgramFile
  | [] => missing
  | dir :: dirs =>
    let path : Path := (if dir.text.isEmpty then ⟨"."⟩ else dir) ++ ⟨name⟩
    match ProgramFile.ofPath m path with
    | file d => file d
    | missing => inDirectories m name dirs
    | denied =>
      match inDirectories m name dirs with
      | missing => if m.isFile path then denied else missing
      | found => found

/-- What is found under a name: a name with a slash is a path, and others are looked for. -/
def ofName (m : Machine) (name : String) : ProgramFile :=
  if name.contains '/' then ProgramFile.ofPath m ⟨name⟩
  else inDirectories m name (Machine.directories (m.searchPath.getD "/bin:/usr/bin"))

end ProgramFile

/-- The name of a program without the directory in front of it. -/
def baseName (name : String) : String :=
  .ofList (name.toList.reverse.takeWhile (· != '/')).reverse

/-- Runs one of the known programs. -/
def runProgram (s : State) (name : String) (args : List String) : State :=
  match name, args with
  | "cat", files => concatenate s files
  | "touch", files => touch s files
  | "rm", args =>
    remove s (args.any fun a => a == "-f" || a == "-rf" || a == "-r")
      (args.filter fun a => !a.startsWith "-")
  | "mkdir", args =>
    let dirs := args.filter fun a => !a.startsWith "-"
    dirs.foldl (fun s dir =>
      match s.machine.tree.follow s.machine.cwd ⟨dir⟩ with
      | .ok (.free parent name) =>
        { s with machine.tree := s.machine.tree.set (parent ++ [name]) (.dir false) }
      | .ok (.entry _ _) => s.fail 1 s!"mkdir: cannot create directory '{dir}': File exists"
      | .error e => s.fail 1 s!"mkdir: cannot create directory '{dir}': {wording e}")
      { s with status := 0 }
  | "grep", args =>
    match args.filter fun a => !a.startsWith "-" with
    | needle :: files => search s (args.contains "-q") needle files
    | [] => s.fail 2 "Usage: grep [OPTION]... PATTERNS [FILE]..."
  | "ls", args => list s (args.filter fun a => !a.startsWith "-")
  | "sleep", _ => { s with status := 0 }
  | _, _ => s

end Amend.Shell
