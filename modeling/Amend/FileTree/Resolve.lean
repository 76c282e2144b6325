import Amend.FileTree.Basic

/-!
# Following paths

A path is followed step by step from the root or from a working directory. Symbolic links on the
way are followed, and the last one too unless it is meant itself; forty links at most.
-/

set_option autoImplicit false

namespace Amend

/-- A step of a path. -/
inductive PathStep
  /-- To the same directory. -/
  | stay
  /-- To the parent directory. -/
  | up
  | into (name : String)
  deriving DecidableEq, Repr

/-- Where a path leads. -/
inductive Destination
  | entry (loc : Location) (e : Entry)
  /-- A name in a directory under which nothing stands. -/
  | free (dir : Location) (name : String)
  deriving DecidableEq

/-- The step that a piece of a path is; an empty piece is none. -/
def PathStep.ofPiece (piece : List Char) : Option PathStep :=
  if piece.isEmpty then none
  else if piece = ['.'] then some .stay
  else if piece = ['.', '.'] then some .up
  else some (.into (.ofList piece))

namespace Path

/-- The steps of a path between its slashes. -/
def innerSteps (p : Path) : List PathStep :=
  (split p.text.toList).filterMap PathStep.ofPiece

/-- The steps of a path. A slash at the end asks for a directory, as a step to itself does. -/
def steps (p : Path) : List PathStep :=
  if p.endsInSlash then p.innerSteps ++ [.stay] else p.innerSteps

/-- The longest name, in bytes. -/
def nameLimit : Nat := 255

/-- The longest path that can be followed, in bytes. -/
def lengthLimit : Nat := 4095

/-- What is wrong with a path as such. It is irreducible so that operations on an unknown path are
not unfolded down to its characters. -/
@[irreducible]
def fault? (p : Path) : Option FileError :=
  if p.text.toList.contains '\x00' then some .nulInPath
  else if p.text.isEmpty then some .notFound
  else if lengthLimit < p.text.utf8ByteSize then some .nameTooLong
  else none

end Path

namespace FileTree

/-- The number of symbolic links that are followed at most. -/
def linkLimit : Nat := 40

/-- Where steps from a location lead, with `links` symbolic links to follow at most. -/
def followSteps (t : FileTree) (lastToo : Bool) (links : Nat) (loc : Location)
    (steps : List PathStep) : Except FileError Destination :=
  match steps with
  | [] =>
    match t.get? loc with
    | some e => .ok (.entry loc e)
    | none => .error .notFound
  | step :: rest =>
    match t.get? loc with
    | some (.dir _) =>
      match step with
      | .stay => followSteps t lastToo links loc rest
      | .up => followSteps t lastToo links loc.dropLast rest
      | .into name =>
        if Path.nameLimit < name.utf8ByteSize then .error .nameTooLong
        else
          let next := loc ++ [name]
          match t.get? next with
          | none => if rest.isEmpty then .ok (.free loc name) else .error .notFound
          | some (.link target) =>
            if rest.isEmpty && !lastToo then .ok (.entry next (.link target))
            else
              match links with
              | 0 => .error .tooManyLinks
              | links + 1 =>
                followSteps t lastToo links (if target.isAbsolute then [] else loc)
                  (target.steps ++ rest)
          | some e =>
            if rest.isEmpty then .ok (.entry next e) else followSteps t lastToo links next rest
    | _ => .error .notADirectory
termination_by (links, steps.length)

/-- Where a path leads from a working directory. -/
def follow (t : FileTree) (cwd : Location) (p : Path) : Except FileError Destination :=
  match p.fault? with
  | some e => .error e
  | none => t.followSteps true linkLimit (if p.isAbsolute then [] else cwd) p.steps

/-- What stands where a path leads. -/
def entryAt (t : FileTree) (cwd : Location) (p : Path) : Except FileError (Location × Entry) :=
  match t.follow cwd p with
  | .ok (.entry loc e) => .ok (loc, e)
  | .ok (.free _ _) => .error .notFound
  | .error e => .error e

/-- Whether anything stands where a path leads. -/
def pathExists (t : FileTree) (cwd : Location) (p : Path) : Bool :=
  match t.entryAt cwd p with
  | .ok _ => true
  | .error _ => false

/-- Whether a path leads to a file. -/
def isFile (t : FileTree) (cwd : Location) (p : Path) : Bool :=
  match t.entryAt cwd p with
  | .ok (_, .file _) => true
  | _ => false

/-- The data of the file that a path leads to. -/
def fileAt (t : FileTree) (cwd : Location) (p : Path) : Except FileError FileData :=
  match t.entryAt cwd p with
  | .ok (_, .file d) => .ok d
  | .ok _ => .error .isADirectory
  | .error e => .error e

/-- The text of the file that a path leads to. -/
def readText (t : FileTree) (cwd : Location) (p : Path) : Except FileError String :=
  match t.fileAt cwd p with
  | .ok d =>
    match d.text? with
    | some text => .ok text
    | none => .error .notText
  | .error e => .error e

/-- The directory that a path leads to. -/
def directoryAt (t : FileTree) (cwd : Location) (p : Path) : Except FileError Location :=
  match t.entryAt cwd p with
  | .ok (loc, .dir _) => .ok loc
  | .ok _ => .error .notADirectory
  | .error e => .error e

/-- The tree with bytes written into the file that a path leads to, which is created if it is
missing. -/
def write (t : FileTree) (cwd : Location) (p : Path) (bytes : ByteArray) :
    Except FileError FileTree :=
  match t.follow cwd p with
  | .ok (.entry loc (.file _)) => .ok (t.setBytes loc bytes)
  | .ok (.entry _ _) => .error .isADirectory
  | .ok (.free dir name) =>
    match t.get? dir with
    | some (.dir true) => .error .notFound
    | _ => .ok (t.set (dir ++ [name]) (.file { bytes, mode := newFileMode }))
  | .error e => .error e

end FileTree

end Amend
