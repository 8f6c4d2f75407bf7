import MessageArchive.Archive.Writer
import MessageArchive.Settings

set_option autoImplicit false

/-! # Archiving a message

The archive directory is made where it is missing, the name is resolved, and the payload is stored
under the first free candidate for the name. All of it is recorded: the trail opens with the
archiver's own entry and closes with the outcome.
-/

namespace MessageArchive.Archive

open MessageArchive.Audit

/-- Makes a directory, with those above it, where there is none. -/
def ensureDir (t : FileTree) (dir : Path) : Except ArchiveError Unit × FileTree :=
  if t.isDir dir then (.ok (), t)
  else
    match t.makeDirs dir with
    | (.ok (), made) => (.ok (), made)
    | (.error cause, tried) => (.error (.file (.createDirectory dir) cause), tried)

/-- The name that a message is archived under at a moment. -/
def resolveName (s : Settings) (context : Context) (now : Calendar.Moment) : Traced String :=
  Template.resolve s.missingProperty s.template context now

/-- The path that a payload would be written to now. It is not reserved. -/
def previewPath (s : Settings) (context : Context) (now : Calendar.Moment) (t : FileTree) :
    Traced Path := do
  let name ← resolveName s context now
  match uniquePath t s.baseDir name s.maxUniqueAttempts with
  | .ok path => return path
  | .error e => Traced.fail e

/-- Resolves the name and stores the payload in a directory that exists. -/
def storeNamed (s : Settings) (context : Context) (payload : Bytes) (now : Calendar.Moment)
    (t : FileTree) : Traced Receipt × FileTree :=
  let named := resolveName s context now
  match named.result with
  | .error e => (⟨named.trail, .error e⟩, t)
  | .ok name =>
      match store t s.baseDir name s.maxUniqueAttempts payload with
      | .error e => (⟨named.trail, .error e⟩, t)
      | .ok (stored, receipt) => (⟨named.trail, .ok receipt⟩, stored)

/-- The part of the work that lies between the first and the last entry of the trail. -/
def write (s : Settings) (context : Context) (payload : Bytes) (now : Calendar.Moment)
    (t : FileTree) : Traced Receipt × FileTree :=
  match ensureDir t s.baseDir with
  | (.error e, tried) => (Traced.fail e, tried)
  | (.ok (), ready) => storeNamed s context payload now ready

/-- The entry that closes the trail. -/
def closing : Except ArchiveError Receipt → Event
  | .ok receipt => .written receipt.path
  | .error e => .failed e

/-- Archives the payload of a message. -/
def archive (s : Settings) (context : Context) (payload : Bytes) (now : Calendar.Moment)
    (t : FileTree) : Traced Receipt × FileTree :=
  let (work, tree) := write s context payload now t
  (⟨.started :: work.trail ++ [closing work.result], work.result⟩, tree)

end MessageArchive.Archive
