import Amend.FileTree.Machine

/-!
# The state of a shell

A shell has variables, an input, two outputs and the status of the last command. Redirections say
where its outputs go. It works on the file tree of a machine.
-/

set_option autoImplicit false

namespace Amend.Shell

/-- Where the device lies that takes everything and gives nothing. -/
def nullDevice : Location := ["dev", "null"]

/-- Where an output goes. -/
inductive Sink
  | out | err | nowhere
  | file (loc : Location)
  deriving DecidableEq

/-- The state of a shell. -/
structure State where
  machine : Machine
  /-- What complaints start with. -/
  name : String := "sh"
  bindings : List (String × String) := []
  /-- The variables that programs see. -/
  exported : List (String × String) := []
  status : Nat := 0
  input : ByteArray := .empty
  out : ByteArray := .empty
  err : ByteArray := .empty
  sinks : List (Nat × Sink) := [(1, .out), (2, .err)]

/-- How a command leaves the shell. -/
inductive Ending
  | goesOn | exits | killed
  deriving DecidableEq

/-- A word while it is being put together: the words that are complete, and the one that is not. -/
structure Words where
  complete : List (List Char) := []
  last : Option (List Char) := none

namespace Words

/-- With text that is not cut. -/
def addWhole (w : Words) (cs : List Char) : Words :=
  { w with last := some (w.last.getD [] ++ cs) }

/-- With text that is cut at blanks. -/
def addCut (w : Words) (cs : List Char) : Words :=
  cs.foldl (fun w c =>
    if c == ' ' || c == '\t' || c == '\n' then ⟨w.complete ++ w.last.toList, none⟩
    else w.addWhole [c]) w

/-- All the words. -/
def toList (w : Words) : List String :=
  (w.complete ++ w.last.toList).map String.ofList

end Words

namespace State

/-- Where an output goes. -/
def sink (s : State) (fd : Nat) : Sink :=
  (s.sinks.lookup fd).getD .nowhere

/-- With bytes written to an output. -/
def write (s : State) (fd : Nat) (bytes : ByteArray) : State :=
  match s.sink fd with
  | .out => { s with out := s.out ++ bytes }
  | .err => { s with err := s.err ++ bytes }
  | .nowhere => s
  | .file loc =>
    match s.machine.tree.get? loc with
    | some (.file d) =>
      { s with machine.tree := s.machine.tree.setBytes loc (d.bytes ++ bytes) }
    | _ => s

/-- With text written to an output. -/
def say (s : State) (fd : Nat) (text : String) : State :=
  s.write fd text.toUTF8

/-- With a complaint and the status of a failure. -/
def fail (s : State) (status : Nat) (text : String) : State :=
  { s.say 2 (text ++ "\n") with status }

/-- With a complaint of the shell itself and the status of a failure. -/
def complain (s : State) (status : Nat) (text : String) : State :=
  s.fail status (s.name ++ ": 1: " ++ text)

/-- The value of a variable. -/
def value (s : State) (name : String) : String :=
  match s.bindings.lookup name with
  | some value => value
  | none =>
    if name == "?" then toString s.status
    else if name == "$" then "1"
    else if name == "#" then "0"
    else if name == "0" then s.name
    else if name == "PWD" then s.machine.cwdPath.text
    else if name == "PATH" then s.machine.searchPath.getD ""
    else ""

end State

/-- A redirection by the name of its file. -/
inductive NamedRedirection
  | input (name : String)
  | output (fd : Nat) (name : String) (append : Bool)
  | duplicate (fd source : Nat)

/-- The state with a redirection made, or with a complaint. -/
def redirect (s : State) (r : NamedRedirection) : Except State State :=
  let m := s.machine
  match r with
  | .input name =>
    match m.tree.fileAt m.cwd ⟨name⟩ with
    | .ok d => .ok { s with input := d.bytes }
    | .error _ => .error (s.complain 2 s!"cannot open {name}: No such file")
  | .duplicate fd source => .ok { s with sinks := (fd, s.sink source) :: s.sinks }
  | .output fd name append =>
    match m.tree.follow m.cwd ⟨name⟩ with
    | .ok (.entry loc (.file _)) =>
      if loc == nullDevice then .ok { s with sinks := (fd, .nowhere) :: s.sinks }
      else
        let tree := if append then m.tree else m.tree.setBytes loc .empty
        .ok { s with machine.tree := tree, sinks := (fd, .file loc) :: s.sinks }
    | .ok (.free dir base) =>
      match m.tree.write m.cwd ⟨name⟩ .empty with
      | .ok tree =>
        .ok { s with machine.tree := tree, sinks := (fd, .file (dir ++ [base])) :: s.sinks }
      | .error _ => .error (s.complain 2 s!"cannot create {name}: Directory nonexistent")
    | .ok _ => .error (s.complain 2 s!"cannot create {name}: Is a directory")
    | .error _ => .error (s.complain 2 s!"cannot create {name}: Directory nonexistent")

end Amend.Shell
