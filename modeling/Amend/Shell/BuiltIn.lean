import Amend.Shell.Format
import Amend.Shell.Program

/-!
# Parts of the shell

The commands that need no program.
-/

set_option autoImplicit false

namespace Amend.Shell

/-- The exit code in an argument. -/
def exitCode (s : State) (args : List String) : Option Nat :=
  match args with
  | [] => some s.status
  | code :: _ => (code.toNat?).map (· % 256)

/-- Whether arguments of `kill` end the shell. -/
def killsShell (args : List String) : Bool :=
  match args with
  | "-0" :: _ | "-s" :: "0" :: _ => false
  | args => args.contains "1"

/-- The arguments of `export` as variables. -/
def exports (s : State) (args : List String) : List (String × String) :=
  args.map fun a =>
    let (name, value) := (a.toList.takeWhile (· != '='), (a.toList.dropWhile (· != '=')).tail)
    let name := String.ofList name
    (name, if a.contains '=' then .ofList value else s.value name)

/-- Runs a part of the shell; nothing if there is none of this name. -/
def runBuiltIn? (s : State) (name : String) (args : List String) : Option (State × Ending) :=
  let done (s : State) (status : Nat) : Option (State × Ending) :=
    some ({ s with status }, .goesOn)
  let failed (s : State) : Option (State × Ending) := some (s, .goesOn)
  let first := args.headD ""
  match name with
  | ":" | "true" => done s 0
  | "false" => done s 1
  | "exit" =>
    match exitCode s args with
    | some status => some ({ s with status }, .exits)
    | none => some (s.complain 2 s!"exit: Illegal number: {first}", .exits)
  | "echo" =>
    let (ending, args) := match args with
      | "-n" :: args => ("", args)
      | args => ("\n", args)
    let text := " ".intercalate args
    done (s.write 1 (unescape true (text.length + 1) text.toList ++ ending.toUTF8)) 0
  | "printf" =>
    match args with
    | text :: args => done (s.write 1 (format (args.length + 1) text.toList args)) 0
    | [] => failed (s.complain 2 "printf: usage: printf format [arg ...]")
  | "pwd" => done (s.say 1 (s.machine.cwdPath.text ++ "\n")) 0
  | "cd" =>
    match s.machine.tree.directoryAt s.machine.cwd ⟨args.headD "/"⟩ with
    | .ok loc => done { s with machine.cwd := loc } 0
    | .error _ => failed (s.complain 2 s!"cd: can't cd to {first}")
  | "export" =>
    let new := exports s args
    done { s with bindings := new ++ s.bindings, exported := new ++ s.exported } 0
  | "kill" => if killsShell args then some (s, .killed) else done s 0
  | "test" =>
    match condition? s.machine args with
    | some b => done s (if b then 0 else 1)
    | none => failed (s.complain 2 s!"test: {first}: unexpected operator")
  | "[" =>
    match condition? s.machine args.dropLast with
    | some b => done s (if b then 0 else 1)
    | none => failed (s.complain 2 s!"[: {first}: unexpected operator")
  | _ => none

end Amend.Shell
