import Amend.Run.Report
import Amend.Shell.BuiltIn
import Amend.Shell.Command
import Amend.Unicode.Decoding

/-!
# Running command lines

A small shell for check commands. It changes the file tree, and its result is an exit code and two
outputs; a killed shell has no exit code.
-/

set_option autoImplicit false

namespace Amend.Shell

/-- Text without the line ends at its end. -/
def dropLineEnds (cs : List Char) : List Char :=
  (cs.reverse.dropWhile (· == '\n')).reverse

mutual

/-- The words that a word stands for. Each unit of fuel takes a step down or along, or a shell
inside the shell. -/
def expand : Nat → State → Word → Words → State × Words
  | 0, s, _, done => (s, done)
  | fuel + 1, s, w, done =>
    match w with
    | [] => (s, done)
    | .text cs :: rest | .quoted cs :: rest => expand fuel s rest (done.addWhole cs)
    | .variable name true :: rest => expand fuel s rest (done.addWhole (s.value name).toList)
    | .variable name false :: rest => expand fuel s rest (done.addCut (s.value name).toList)
    | .output command quoted :: rest =>
      let (inner, _) := runText fuel command { s with out := .empty, sinks := (1, .out) :: s.sinks }
      let text := dropLineEnds (Unicode.textOfBytes inner.out).toList
      let s := { s with
        machine.tree := inner.machine.tree, err := inner.err, status := inner.status }
      expand fuel s rest (if quoted then done.addWhole text else done.addCut text)

/-- The words that words stand for, one after the other. -/
def expandAll : Nat → State → List Word → State × List String
  | 0, s, _ => (s, [])
  | fuel + 1, s, ws =>
    match ws with
    | [] => (s, [])
    | w :: ws =>
      let (s, words) := expand fuel s w {}
      let (s, rest) := expandAll fuel s ws
      (s, words.toList ++ rest)

/-- The text that a word stands for where it is not cut. -/
def expandWhole (fuel : Nat) (s : State) (w : Word) : State × String :=
  let whole := w.map fun
    | .variable name _ => WordPart.variable name true
    | .output command _ => .output command true
    | part => part
  match fuel with
  | 0 => (s, "")
  | fuel + 1 =>
    let (s, words) := expand fuel s whole {}
    (s, String.join words.toList)

/-- Makes redirections one after the other. -/
def redirectAll : Nat → State → List Redirection → Except State State
  | 0, s, _ => .ok s
  | fuel + 1, s, rs =>
    match rs with
    | [] => .ok s
    | r :: rs =>
      let (s, named) : State × NamedRedirection := match r with
        | .input file =>
          let (s, name) := expandWhole fuel s file
          (s, .input name)
        | .output fd file append =>
          let (s, name) := expandWhole fuel s file
          (s, .output fd name append)
        | .duplicate fd source => (s, .duplicate fd source)
      match redirect s named with
      | .ok s => redirectAll fuel s rs
      | .error s => .error s

/-- The values of assignments, the latest first. -/
def assign : Nat → State → List (String × Word) → List (String × String) →
    State × List (String × String)
  | 0, s, _, done => (s, done)
  | fuel + 1, s, as, done =>
    match as with
    | [] => (s, done)
    | (name, w) :: as =>
      let (s, value) := expandWhole fuel { s with bindings := done ++ s.bindings } w
      assign fuel s as ((name, value) :: done)

/-- Runs a command. -/
def run : Nat → Command → State → State × Ending
  | 0, _, s => (s, .goesOn)
  | fuel + 1, c, s =>
    match c with
    | .nothing => (s, .goesOn)
    | .simple c => runSimple fuel c s
    | .negated c =>
      match run fuel c s with
      | (s, .goesOn) => ({ s with status := if s.status = 0 then 1 else 0 }, .goesOn)
      | result => result
    | .sequence c d =>
      match run fuel c s with
      | (s, .goesOn) => run fuel d s
      | result => result
    | .both c d =>
      match run fuel c s with
      | (s, .goesOn) => if s.status = 0 then run fuel d s else (s, .goesOn)
      | result => result
    | .either c d =>
      match run fuel c s with
      | (s, .goesOn) => if s.status = 0 then (s, .goesOn) else run fuel d s
      | result => result
    | .background c =>
      match run fuel (.subshell c) s with
      | (s, .killed) => (s, .killed)
      | (s, _) => ({ s with status := 0 }, .goesOn)
    | .subshell c =>
      let (inner, ending) := run fuel c s
      ({ inner with
          bindings := s.bindings, exported := s.exported, sinks := s.sinks,
          machine.cwd := s.machine.cwd },
        if ending = .killed then .killed else .goesOn)
    | .pipe c d =>
      let (first, ending) := run fuel c { s with out := .empty, sinks := (1, .out) :: s.sinks }
      if ending = .killed then (first, ending)
      else
        let second := { s with
          machine.tree := first.machine.tree, err := first.err, input := first.out }
        let (second, ending) := run fuel (.subshell d) second
        ({ second with input := s.input }, ending)
    | .choice condition yes no =>
      match run fuel condition s with
      | (t, .goesOn) =>
        if t.status = 0 then run fuel yes t else run fuel no { t with status := 0 }
      | result => result
    | .loop condition body => runLoop fuel condition body 0 s
    | .forEach name words body =>
      let (s, items) := expandAll fuel s words
      runForEach fuel name items body { s with status := 0 }
    | .redirected c rs =>
      match redirectAll fuel s rs with
      | .error s => (s, .goesOn)
      | .ok inner =>
        let (after, ending) := run fuel c inner
        ({ after with sinks := s.sinks, input := s.input }, ending)

/-- Repeats a command as long as a condition holds; `status` is that of the last time. -/
def runLoop : Nat → Command → Command → Nat → State → State × Ending
  | 0, _, _, _, s => (s, .goesOn)
  | fuel + 1, condition, body, status, s =>
    match run fuel condition s with
    | (s, .goesOn) =>
      if s.status = 0 then
        match run fuel body s with
        | (s, .goesOn) => runLoop fuel condition body s.status s
        | result => result
      else ({ s with status }, .goesOn)
    | result => result

/-- Runs a command for each item. -/
def runForEach : Nat → String → List String → Command → State → State × Ending
  | 0, _, _, _, s => (s, .goesOn)
  | fuel + 1, name, items, body, s =>
    match items with
    | [] => (s, .goesOn)
    | item :: items =>
      match run fuel body { s with bindings := (name, item) :: s.bindings } with
      | (s, .goesOn) => runForEach fuel name items body s
      | result => result

/-- Runs a simple command. -/
def runSimple : Nat → SimpleCommand → State → State × Ending
  | 0, _, s => (s, .goesOn)
  | fuel + 1, c, s =>
    let (s, words) := expandAll fuel s c.words
    match redirectAll fuel s c.redirections with
    | .error s => (s, .goesOn)
    | .ok inner =>
      let (inner, assigned) := assign fuel { inner with status := 0 } c.assignments []
      let after (result : State × Ending) : State × Ending :=
        ({ result.1 with sinks := s.sinks, input := s.input }, result.2)
      match words with
      | [] => after ({ inner with bindings := assigned ++ inner.bindings }, .goesOn)
      | name :: args =>
        let inner := { inner with status := s.status }
        match runBuiltIn? inner name args with
        | some result => after result
        | none =>
          let program := { inner with exported := assigned ++ inner.exported }
          let (ended, ending) := runFile fuel name args program
          after ({ ended with exported := inner.exported }, ending)

/-- Runs what is found under the name of a program. -/
def runFile : Nat → String → List String → State → State × Ending
  | 0, _, _, s => (s, .goesOn)
  | fuel + 1, name, args, s =>
    match ProgramFile.ofName s.machine name with
    | .missing => (s.complain 127 s!"{name}: not found", .goesOn)
    | .denied => (s.complain 126 s!"{name}: Permission denied", .goesOn)
    | .file d =>
      let base := baseName name
      if d.bytes.isEmpty && base == "sh" then
        if args.head? = some "-c" then runShell fuel "sh" (args[1]?.getD "") (args.drop 3) s
        else ({ s with status := 0 }, .goesOn)
      else if d.bytes.isEmpty && programs.contains base then (runProgram s base args, .goesOn)
      else runShell fuel name (d.text?.getD "") args s

/-- Runs a text in a shell that sees only what is exported, and its arguments. -/
def runShell : Nat → String → String → List String → State → State × Ending
  | 0, _, _, _, s => (s, .goesOn)
  | fuel + 1, name, text, args, s =>
    let arguments := args.zipIdx.map fun (arg, i) => (toString (i + 1), arg)
    let all := [("#", toString args.length), ("@", " ".intercalate args)]
    let (ended, ending) := runText fuel text
      { s with name, bindings := all ++ arguments ++ s.exported }
    ({ ended with name := s.name, bindings := s.bindings }, ending)

/-- Runs the lines of a text, up to one with a fault, inside this shell. -/
def runText : Nat → String → State → State × Ending
  | 0, _, s => (s, .goesOn)
  | fuel + 1, text, s =>
    let (commands, fault) := Command.ofText text
    let whole := commands.foldr (fun c rest => .sequence c rest) Command.nothing
    let (inner, ending) := run fuel whole { s with status := 0 }
    let inner := match ending, fault with
      | .goesOn, some fault => inner.complain 2 ("Syntax error: " ++ fault.message)
      | _, _ => inner
    ({ inner with
        bindings := s.bindings, exported := s.exported, sinks := s.sinks,
        machine.cwd := s.machine.cwd },
      if ending = .killed then .killed else .goesOn)

end

/-- How many steps down and along a shell takes for a command at most. -/
def depth (command : String) : Nat := 16 * command.length + 1000

/-- Runs a check command in a directory: the verification and the tree afterwards. A command that
printed complaints has them after its output. -/
def verify (m : Machine) (dir : Path) (command : String) : Verification × FileTree :=
  let notRun (e : FileError) : Verification × FileTree :=
    ({ command, passed := false, exitCode := none,
       output := s!"failed to run `{command}`: {e.message}" }, m.tree)
  match m.tree.directoryAt m.cwd dir with
  | .error e => notRun e
  | .ok loc =>
    let inside := { m with cwd := loc }
    match ProgramFile.ofName inside "sh" with
    | .missing => notRun .notFound
    | .denied => notRun .permissionDenied
    | .file _ =>
      let (s, ending) := runText (depth command) command { machine := inside }
      let (out, err) := (Unicode.textOfBytes s.out, Unicode.textOfBytes s.err)
      ({ command
         passed := ending ≠ .killed && s.status = 0
         exitCode := if ending = .killed then none else some s.status
         output := if err.isEmpty then out else out ++ "\n" ++ err }, s.machine.tree)

end Amend.Shell
