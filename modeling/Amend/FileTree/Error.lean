import Amend.Path

/-!
# Why a file operation fails
-/

set_option autoImplicit false

namespace Amend

/-- The faults of file operations. -/
inductive FileError
  | notFound
  | permissionDenied
  | busy
  | alreadyExists
  | notADirectory
  | isADirectory
  | nameTooLong
  | tooManyLinks
  /-- The file is read as text but is not valid UTF-8. -/
  | notText
  /-- The path holds the character NUL. -/
  | nulInPath
  /-- A fault of a temporary file, which tells the path of that file. -/
  | atPath (e : FileError) (path : Path)
  /-- Any other fault, in its own words. -/
  | other (text : String)
  deriving DecidableEq, Repr

/-- The wording of a fault, with the number that the operating system gives it. The path of a
temporary file, which is printed after it, is not part of the wording: its name is a random one. -/
def FileError.message : FileError → String
  | notFound => "No such file or directory (os error 2)"
  | permissionDenied => "Permission denied (os error 13)"
  | busy => "Device or resource busy (os error 16)"
  | alreadyExists => "File exists (os error 17)"
  | notADirectory => "Not a directory (os error 20)"
  | isADirectory => "Is a directory (os error 21)"
  | nameTooLong => "File name too long (os error 36)"
  | tooManyLinks => "Too many levels of symbolic links (os error 40)"
  | notText => "stream did not contain valid UTF-8"
  | nulInPath => "file name contained an unexpected NUL byte"
  | atPath e _ => e.message
  | other text => text

end Amend
