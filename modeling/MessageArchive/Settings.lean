import MessageArchive.Archive.Unique
import MessageArchive.Template.Resolver

set_option autoImplicit false

/-! # Settings of the archive

Where payloads are archived, and under which names.
-/

namespace MessageArchive

/-- The settings of an archive. -/
structure Settings where
  /-- The directory payloads are written to. It is made when it is missing. -/
  baseDir : Path
  /-- The template of file names, without the extension. -/
  fileName : String
  /-- Stands behind the template after a dot, and is itself part of the template. An empty
  extension is left out together with the dot. -/
  extension : String := "arc"
  /-- The highest number that is put behind a name that is taken. -/
  maxUniqueAttempts : Nat := Archive.defaultLimit
  missingProperty : Template.MissingProperty := .empty
  deriving DecidableEq, Repr

namespace Settings

/-- The settings that hold where there are none. -/
def standard : Settings where
  baseDir := ⟨"archive"⟩
  fileName := "%fs-%id-%TS"

/-- The template that is resolved. -/
def template (s : Settings) : String :=
  if s.extension.isEmpty then s.fileName else s.fileName ++ "." ++ s.extension

end Settings

end MessageArchive
