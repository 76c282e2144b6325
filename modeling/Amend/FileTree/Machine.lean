import Amend.FileTree.Resolve
import Amend.Unicode.Letter

/-!
# Where a program runs

A program sees a file tree from a working directory, and finds other programs by a list of
directories.
-/

set_option autoImplicit false

namespace Amend

/-- The surroundings of a program. -/
structure Machine where
  tree : FileTree
  cwd : Location
  /-- The directories of programs, with colons between them. -/
  searchPath : Option String

namespace Machine

/-- The working directory as a path. -/
def cwdPath (m : Machine) : Path :=
  Location.toPath m.cwd

/-- Whether a path leads to a file. -/
def isFile (m : Machine) (p : Path) : Bool :=
  m.tree.isFile m.cwd p

/-- Whether anything stands where a path leads. -/
def pathExists (m : Machine) (p : Path) : Bool :=
  m.tree.pathExists m.cwd p

/-- The texts between the colons of `cs`. -/
def splitColons : List Char → List (List Char)
  | [] => [[]]
  | c :: cs =>
    if c = ':' then [] :: splitColons cs
    else
      match splitColons cs with
      | [] => [[c]]
      | piece :: pieces => (c :: piece) :: pieces

/-- The directories of a search path. -/
def directories (searchPath : String) : List Path :=
  (splitColons searchPath.toList).map fun piece => ⟨.ofList piece⟩

/-- Whether the program that a command line starts with can be found. A name with more than one
step is a path of its own; a single name is looked for in the search path, where an empty entry is
the working directory. -/
def findsProgramOf (m : Machine) (commandLine : String) : Bool :=
  let word := (commandLine.toList.dropWhile Unicode.isSpace).takeWhile (!Unicode.isSpace ·)
  if word.isEmpty then false
  else
    let program : Path := ⟨.ofList word⟩
    if 1 < program.stepCount then m.isFile program
    else
      match m.searchPath with
      | none => false
      | some searchPath => (directories searchPath).any fun dir => m.isFile (dir ++ program)

end Machine

end Amend
