import Amend.Fault
import Amend.FileTree.Resolve

/-!
# Staged writes

A new content is staged in a temporary file next to its target and takes the place of the target
in one step once it is complete. Until then the target is as it was, and whatever goes wrong, the
temporary file is removed again.
-/

set_option autoImplicit false

namespace Amend

/-- The operations on files that rewriting takes, in their order. -/
inductive FileStep
  | read | create | write | flush | sync | setMode | rename
  deriving DecidableEq, Repr

/-- Which operations fail, and how. -/
abbrev Faults := FileStep → Option FileError

/-- No operation fails by itself. -/
def noFaults : Faults := fun _ => none

/-- A content staged for a target. -/
structure StagedWrite where
  target : Path
  /-- Where the temporary file stands. -/
  temp : Location
  deriving DecidableEq, Repr

namespace StagedWrite

/-- The permission bits of temporary files. -/
def tempMode : Nat := 0o600

/-- The directory for the temporary file of a target: that of the target. -/
def directory (target : Path) : Path :=
  match target.parent? with
  | some p => if p.text.isEmpty then ⟨"."⟩ else p
  | none => ⟨"."⟩

/-- The `n`th name for temporary files. -/
def tempName (n : Nat) : String :=
  ".sentinel-fix-" ++ .ofList (List.replicate (6 - (toString n).length) '0') ++ toString n ++ ".tmp"

/-- A name for a temporary file in a directory that is not taken there. -/
def freshName (t : FileTree) (dir : Location) : String :=
  tempName (((List.range (t.entries.length + 1)).find? fun n =>
    (t.get? (dir ++ [tempName n])).isNone).getD 0)

/-- The path of a temporary file for a target: the directory as the target spells it, from the root
on, and a name. -/
def tempPath (cwd : Location) (target : Path) (name : String) : Path :=
  cwd.toPath ++ directory target ++ (⟨name⟩ : Path)

/-- What is wrong with the path of a temporary file for a target, which can be too long though that
of the target is not. All names are of one length, so the first one stands for whichever is
tried. -/
def tempFault? (cwd : Location) (target : Path) : Option FileError :=
  (tempPath cwd target (tempName 0)).fault?

/-- A fault that keeps a temporary file for a target from being created. -/
def refusal (cwd : Location) (target : Path) (e : FileError) : FileError :=
  .atPath e (tempPath cwd target (tempName 0))

/-- Creates an empty temporary file for a target. -/
def create (t : FileTree) (cwd : Location) (target : Path) :
    Except FileError (StagedWrite × FileTree) :=
  match tempFault? cwd target with
  | some e => .error (refusal cwd target e)
  | none =>
    match t.entryAt cwd (directory target) with
    | .error e => .error (refusal cwd target e)
    | .ok (loc, .dir isSealed) =>
      let temp := loc ++ [freshName t loc]
      if isSealed then .error (refusal cwd target .notFound)
      else if (t.get? temp).isSome then .error (refusal cwd target .alreadyExists)
      else
        .ok (⟨target, temp⟩, t.set temp (.file { bytes := .empty, mode := tempMode }))
    | .ok _ => .error (refusal cwd target .notADirectory)

/-- The path under which the temporary file was created. -/
def path (w : StagedWrite) (cwd : Location) : Path :=
  tempPath cwd w.target (w.temp.getLast?.getD "")

/-- Appends to the staged content. -/
def append (w : StagedWrite) (t : FileTree) (contents : String) : FileTree :=
  match t.get? w.temp with
  | some (.file d) => t.set w.temp (.file { d with bytes := d.bytes ++ contents.toUTF8 })
  | _ => t

/-- Removes the temporary file. -/
def discard (w : StagedWrite) (t : FileTree) : FileTree :=
  t.erase w.temp

/-- Gives the staged content the permission bits of what the target leads to, if it leads to
anything. -/
def copyMode (w : StagedWrite) (t : FileTree) (cwd : Location) : FileTree :=
  match t.entryAt cwd w.target, t.get? w.temp with
  | .ok (_, .file old), some (.file d) => t.set w.temp (.file { d with mode := old.mode })
  | _, _ => t

theorem discard_copyMode (w : StagedWrite) (t : FileTree) (cwd : Location) :
    w.discard (w.copyMode t cwd) = w.discard t := by
  unfold copyMode discard
  split
  · exact FileTree.erase_set ..
  · rfl

/-- Puts the temporary file in the place of the target. A link is replaced itself; a directory is
not replaced, and `.`, `..` and the root are in use. -/
def replace (w : StagedWrite) (t : FileTree) (cwd : Location) : Except FileError FileTree :=
  match w.target.fault? with
  | some e => .error e
  | none =>
    let start := if w.target.isAbsolute then [] else cwd
    match w.target.innerSteps.getLast? with
    | none => .error .busy
    | some last =>
      match t.followSteps true FileTree.linkLimit start w.target.innerSteps.dropLast with
      | .error e => .error e
      | .ok (.free _ _) => .error .notFound
      | .ok (.entry dir (.dir _)) =>
        match last with
        | .into name =>
          if Path.nameLimit < name.utf8ByteSize then .error .nameTooLong
          else if w.target.endsInSlash then .error .notADirectory
          else
            match t.get? (dir ++ [name]), t.get? w.temp with
            | some (.dir _), _ => .error .isADirectory
            | _, some e => .ok ((t.erase w.temp).set (dir ++ [name]) e)
            | _, none => .error .notFound
        | _ => .error .busy
      | .ok _ => .error .notADirectory

/-- Fails with a fault, if there is one. -/
def check : Option FileError → Except FileError Unit
  | some e => .error e
  | none => .ok ()

/-- The operations that end a staged write. There is a mode to set only where the target leads
somewhere. -/
def publish (w : StagedWrite) (faults : Faults) (t : FileTree) (cwd : Location) :
    Except FileError FileTree := do
  check (faults .sync)
  if t.pathExists cwd w.target then
    check (faults .setMode)
  check (faults .rename)
  w.replace (w.copyMode t cwd) cwd

theorem publish_noFaults (w : StagedWrite) (t : FileTree) (cwd : Location) :
    w.publish noFaults t cwd = w.replace (w.copyMode t cwd) cwd := by
  unfold publish
  split <;> rfl

/-- Ends a staged write. Where an operation fails, the temporary file is removed. -/
def commit (w : StagedWrite) (faults : Faults) (t : FileTree) (cwd : Location) :
    FileTree × Except FileError Unit :=
  match w.publish faults t cwd with
  | .ok t => (t, .ok ())
  | .error e => (w.discard t, .error e)

/-- Writes `contents` to a target: all of it, or nothing. -/
def writeAtomic (faults : Faults) (t : FileTree) (cwd : Location) (target : Path)
    (contents : String) : FileTree × Except FileError Unit :=
  match faults .create with
  | some e => (t, .error (refusal cwd target e))
  | none =>
    match create t cwd target with
    | .error e => (t, .error e)
    | .ok (w, t) =>
      match faults .write, faults .flush with
      | some e, _ => (w.discard t, .error (.atPath e (w.path cwd)))
      | none, some e => (w.discard (w.append t contents), .error (.atPath e (w.path cwd)))
      | none, none => w.commit faults (w.append t contents) cwd

end StagedWrite

end Amend
