import MessageArchive.Archive.Unique
import MessageArchive.Digest.Sha256
import MessageArchive.Text.Hex

set_option autoImplicit false

/-! # Writing archive files

A writer owns a file it has claimed, appends to it piece by piece, and keeps count and digest of
what it wrote. It ends in one of three ways: finished, which gives a receipt; discarded, which
removes the file; or dropped, which leaves the file as it is.

A file tree does not tell whether the system takes what is written to a file, so writes and the sync
at the end are taken not to fail. Where one fails there is an error in place of the receipt. The
writer is then discarded by `store` and by `finish`; after a failed `write` its owner still has it,
to be discarded or dropped. The file is therefore gone, or it has in it what was written so far, as
with a writer that ended in that way before.
-/

namespace MessageArchive.Archive

open MessageArchive.Digest

/-- What has been archived: the path of the file, its length, and the SHA-256 digest of its
content in lowercase hexadecimal. -/
structure Receipt where
  path : Path
  bytes : Nat
  sha256 : String
  deriving DecidableEq, Repr

/-- A digest in lowercase hexadecimal. -/
def hexDigest (digest : List UInt8) : String := String.ofList (Text.hexOfBytes digest)

/-- A claimed file that is being written. -/
structure Writer where
  path : Path
  location : Location
  hasher : Sha256.Hasher := .empty
  written : Nat := 0
  deriving DecidableEq, Repr

/-- Claims a file to write to. -/
def createUnique (t : FileTree) (base : Path) (name : String) (limit : Nat) :
    Except ArchiveError (FileTree × Writer) :=
  (claim t base name limit).map fun (made, claimed) =>
    (made, { path := claimed.path, location := claimed.location })

namespace Writer

/-- Appends a piece to the file, which takes all of it. -/
def write (w : Writer) (t : FileTree) (data : Bytes) : FileTree × Writer :=
  (t.appendAt w.location data,
    { w with hasher := w.hasher.update data, written := w.written + data.length })

/-- Appends several pieces, one after the other. -/
def writeAll (w : Writer) (t : FileTree) (pieces : List Bytes) : FileTree × Writer :=
  pieces.foldl (fun (t, w) data => w.write t data) (t, w)

/-- Closes the file, with its content safe on the disk, and says what is in it. -/
def finish (w : Writer) : Receipt := ⟨w.path, w.written, hexDigest w.hasher.finish⟩

/-- Closes and removes the file. It does not matter if the file is gone already. -/
def discard (w : Writer) (t : FileTree) : FileTree :=
  match t.remove w.path with
  | .ok removed => removed
  | .error _ => t

end Writer

/-- Writes a payload to a file of its own. With writes that do not fail, this fails only if no file
can be claimed. -/
def store (t : FileTree) (base : Path) (name : String) (limit : Nat) (payload : Bytes) :
    Except ArchiveError (FileTree × Receipt) :=
  (createUnique t base name limit).map fun (made, writer) =>
    let (written, writer) := writer.write made payload
    (written, writer.finish)

end MessageArchive.Archive
