import MessageArchive.Archive.Checksum
import MessageArchive.Settings.File
import MessageArchive.Text.Quoted

set_option autoImplicit false

/-! # Failures of a run

A failure is told as what was being done, then, behind colons, what went wrong with it, down to the
cause that the operating system gives.
-/

namespace MessageArchive.CommandLine

/-- Why a request is not carried out. -/
inductive Failure where
  /-- There are no settings. -/
  | noSettings (cause : SettingsError)
  /-- There is no message. -/
  | noMessage (cause : ReadError)
  /-- There is no payload. -/
  | noPayload (path : Path) (cause : FileError)
  /-- The template gives no name for the message. -/
  | noName (template messageId : String) (cause : ArchiveError)
  /-- There is no path for the name. -/
  | noPath (cause : ArchiveError)
  /-- The message is not archived. -/
  | notArchived (messageId : String) (cause : ArchiveError)
  /-- There is no digest of the file. -/
  | noDigest (cause : Archive.ChecksumError)
  /-- The digest of the file is not the expected one. -/
  | mismatch (path : Path) (expected : String)
  deriving DecidableEq, Repr

/-- The failure of archiving, with the cause that the operating system gives. -/
def archiveChain (e : ArchiveError) : List String :=
  e.message :: (e.cause?.map FileError.message).toList

/-- The failure of reading, with the cause that the operating system gives. -/
def readChain (e : ReadError) : List String :=
  e.message :: (e.cause?.map FileError.message).toList

namespace Failure

/-- The failure in words, from what was being done down to the cause. -/
def chain : Failure → List String
  | .noSettings (.unmade cause) => [cause.message]
  | .noSettings (.unread cause) => readChain cause
  | .noMessage cause => readChain cause
  | .noPayload path cause => ["read payload " ++ path.text, cause.message]
  | .noName template messageId cause =>
      ("resolve template " ++ Text.quoted template ++ " for message " ++ messageId)
        :: archiveChain cause
  | .noPath cause => archiveChain cause
  | .notArchived messageId cause => ("archive message " ++ messageId) :: archiveChain cause
  | .noDigest cause => [cause.message, cause.cause.message]
  | .mismatch path expected =>
      ["checksum mismatch for " ++ path.text ++ ": expected " ++ expected]

/-- The failure as one line. -/
def text (f : Failure) : String := String.intercalate ": " f.chain

end Failure

end MessageArchive.CommandLine
