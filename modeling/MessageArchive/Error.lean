import MessageArchive.Calendar.Pattern
import MessageArchive.FileTree.Path

set_option autoImplicit false

/-! # Failures of archiving

What can keep a message from being archived, and how it is told. A template is faulty in itself
or gives a name that cannot be used; a property may be missing; all names may be taken; or an
operation on the file tree fails.
-/

namespace MessageArchive

/-- What is wrong with a template, or with the name it gives. -/
inductive TemplateFault where
  /-- A placeholder that is never closed with the given character. -/
  | unclosed (closer : Char)
  /-- A reference to a property without a slash in it. -/
  | noSlash (reference : String)
  /-- A date pattern that cannot be read. -/
  | datePattern (pattern : String) (fault : Calendar.Pattern.Fault)
  /-- A name that leads out of the archive directory. -/
  | leavesDirectory (name : String)
  deriving DecidableEq, Repr

/-- What was being done when an operation on the file tree failed. -/
inductive FileTask where
  | createFile (path : Path)
  | createDirectory (path : Path)
  deriving DecidableEq, Repr

/-- Why a message is not archived. -/
inductive ArchiveError where
  | malformed (fault : TemplateFault)
  /-- A property that is not set, under the policy that does not allow this. -/
  | unresolved (space name : String)
  /-- All names are taken, up to and including the one with the number `attempts`. -/
  | noUniqueName (base : Path) (attempts : Nat)
  | file (task : FileTask) (cause : FileError)
  deriving DecidableEq, Repr

/-- The fault in words. -/
def TemplateFault.message : TemplateFault → String
  | .unclosed closer => "no closing '" ++ closer.toString ++ "' found"
  | .noSlash reference => "no '/' found in dynamic reference '[" ++ reference ++ "]'"
  | .datePattern pattern .unterminatedQuote =>
      "unterminated quote in date pattern '" ++ pattern ++ "'"
  | .datePattern pattern (.illegalLetter c) =>
      "illegal pattern character '" ++ c.toString ++ "' in date pattern '" ++ pattern ++ "'"
  | .leavesDirectory name => "resolved filename '" ++ name ++ "' leaves the archive directory"

/-- The task in words, as something that has failed. -/
def FileTask.message : FileTask → String
  | .createFile path => "failed to create archive file: " ++ path.text
  | .createDirectory path => "failed to create archive directory: " ++ path.text

namespace ArchiveError

/-- The failure in words, without the cause that the operating system gives. -/
def message : ArchiveError → String
  | .malformed fault => "faulty filename template: " ++ fault.message
  | .unresolved space name =>
      "dynamic property " ++ name ++ " (namespace " ++ space ++ ") is not set on the message"
  | .noUniqueName base attempts =>
      "not able to find a unique archive filename for " ++ base.text ++ " after "
        ++ toString attempts ++ " attempts"
  | .file task _ => task.message

/-- The cause that lies in the file tree. -/
def cause? : ArchiveError → Option FileError
  | .file _ cause => some cause
  | _ => none

end ArchiveError

end MessageArchive
