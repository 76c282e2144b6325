import Amend.FileTree.Error
import Amend.Path

/-!
# File trees

A file tree says what stands at each location: a file, a directory or a symbolic link. Files that
are hard links of each other form a group and always hold the same data.
-/

set_option autoImplicit false

namespace Amend

/-- A location: the names on the way from the root, which is the empty location. -/
abbrev Location := List String

/-- The data of a file. -/
structure FileData where
  bytes : ByteArray
  /-- The permission bits. -/
  mode : Nat
  /-- The group of hard links that the file belongs to. -/
  group : Option Nat := none

theorem FileData.eq_iff {d e : FileData} :
    d.bytes.data = e.bytes.data ∧ d.mode = e.mode ∧ d.group = e.group ↔ d = e := by
  obtain ⟨⟨bytes⟩, mode, group⟩ := d
  obtain ⟨⟨bytes'⟩, mode', group'⟩ := e
  simp

instance : DecidableEq FileData := fun _ _ => decidable_of_decidable_of_iff FileData.eq_iff

/-- The text in a file, if that is valid UTF-8. -/
def FileData.text? (d : FileData) : Option String :=
  String.fromUTF8? d.bytes

/-- What stands at a location. -/
inductive Entry
  | file (d : FileData)
  /-- A directory; in a sealed one no file can be created. -/
  | dir (isSealed : Bool)
  | link (target : Path)
  deriving DecidableEq

/-- What stands where. The root is not listed: it is always a directory. -/
structure FileTree where
  entries : List (Location × Entry)

namespace FileTree

/-- The permission bits of new files. -/
def newFileMode : Nat := 0o644

/-- What stands at a location. -/
def get? (t : FileTree) : Location → Option Entry
  | [] => some (.dir false)
  | loc => t.entries.lookup loc

/-- The tree without the entry at a location. -/
def erase (t : FileTree) (loc : Location) : FileTree :=
  ⟨t.entries.filter (·.1 ≠ loc)⟩

/-- The tree with an entry at a location, in the place of what stood there. -/
def set (t : FileTree) (loc : Location) (e : Entry) : FileTree :=
  if t.entries.any (·.1 = loc) then
    ⟨t.entries.map fun p => if p.1 = loc then (loc, e) else p⟩
  else ⟨(loc, e) :: t.entries⟩

theorem erase_set (t : FileTree) (loc : Location) (e : Entry) :
    (t.set loc e).erase loc = t.erase loc := by
  unfold set erase
  split
  · simp only [List.filter_map, mk.injEq]
    induction t.entries with
    | nil => rfl
    | cons p ps ih => by_cases h : p.1 = loc <;> simp_all
  · simp

/-- The tree with new bytes in the file at a location and in its hard links. -/
def setBytes (t : FileTree) (loc : Location) (bytes : ByteArray) : FileTree :=
  match t.get? loc with
  | some (.file d) =>
    match d.group with
    | none => t.set loc (.file { d with bytes })
    | some g =>
      ⟨t.entries.map fun p =>
        match p.2 with
        | .file d => if d.group = some g then (p.1, .file { d with bytes }) else p
        | _ => p⟩
  | _ => t

/-- The tree without the entry at a location and those below it. -/
def eraseAll (t : FileTree) (loc : Location) : FileTree :=
  ⟨t.entries.filter fun p => !loc.isPrefixOf p.1⟩

/-- The entries below a location, with their locations from there. -/
def below (t : FileTree) (loc : Location) : List (Location × Entry) :=
  t.entries.filterMap fun p =>
    if loc.isPrefixOf p.1 && p.1 ≠ loc then some (p.1.drop loc.length, p.2) else none

/-- The tree with directories at a location and on the way there, where nothing stands yet. -/
def makeDirs (t : FileTree) (loc : Location) : FileTree :=
  (List.range (loc.length + 1)).foldl (fun t n =>
    let dir := loc.take n
    if (t.get? dir).isNone then t.set dir (.dir false) else t) t

end FileTree

/-- A location as an absolute path. -/
def Location.toPath (loc : Location) : Path :=
  .ofSegments true (loc.map String.toList)

end Amend
