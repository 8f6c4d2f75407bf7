set_option autoImplicit false

/-! # Failures of file operations

Why an operation on the file tree fails. Most causes have a number given by the operating
system; a path that holds the character U+0000 and a file that is not text are refused before
the operating system is asked.
-/

namespace MessageArchive

inductive FileError where
  /-- A name on the path names nothing. -/
  | noSuchEntry
  /-- There is already something of that name. -/
  | alreadyExists
  /-- A file stands where a directory is needed. -/
  | notADirectory
  /-- A directory stands where a file is needed. -/
  | isADirectory
  /-- A name on the path, or the whole path, is too long. -/
  | nameTooLong
  /-- The path holds the character U+0000. -/
  | nulInPath
  /-- The content of the file is not UTF-8. -/
  | notText
  deriving DecidableEq, Repr

namespace FileError

/-- The number the operating system gives to the cause. -/
def code? : FileError → Option Nat
  | .noSuchEntry => some 2
  | .alreadyExists => some 17
  | .notADirectory => some 20
  | .isADirectory => some 21
  | .nameTooLong => some 36
  | .nulInPath => none
  | .notText => none

/-- The cause in words. -/
def message : FileError → String
  | .noSuchEntry => "No such file or directory (os error 2)"
  | .alreadyExists => "File exists (os error 17)"
  | .notADirectory => "Not a directory (os error 20)"
  | .isADirectory => "Is a directory (os error 21)"
  | .nameTooLong => "File name too long (os error 36)"
  | .nulInPath => "file name contained an unexpected NUL byte"
  | .notText => "stream did not contain valid UTF-8"

end FileError

end MessageArchive
