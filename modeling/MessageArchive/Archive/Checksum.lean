import MessageArchive.Archive.Writer
import MessageArchive.Text.Blank

set_option autoImplicit false

/-! # Checking archived files

The digest of a file can be compared with the one on a receipt. The file is read in pieces of a
fixed length.
-/

namespace MessageArchive.Archive

open MessageArchive.Digest

/-- Why the digest of a file is not known. -/
inductive ChecksumError where
  /-- The path names nothing that can be opened. -/
  | unopened (path : Path) (cause : FileError)
  /-- What was opened cannot be read. -/
  | unread (path : Path) (cause : FileError)
  deriving DecidableEq, Repr

namespace ChecksumError

/-- What was being done, in words. -/
def message : ChecksumError → String
  | .unopened path _ => "open " ++ path.text
  | .unread path _ => "read " ++ path.text

def cause : ChecksumError → FileError
  | .unopened _ cause => cause
  | .unread _ cause => cause

end ChecksumError

/-- The number of bytes that are read at a time. -/
def readLength : Nat := 65536

/-- The digest of a content that is read in pieces, given what is known of the pieces before. -/
def hashPieces (h : Sha256.Hasher) (content : Bytes) : Sha256.Hasher :=
  match _rest : content with
  | [] => h
  | _ :: _ => hashPieces (h.update (content.take readLength)) (content.drop readLength)
termination_by content.length
decreasing_by
  subst _rest
  simp only [List.length_drop, List.length_cons, readLength]
  omega

/-- The digest of the file a path names, in lowercase hexadecimal. -/
def checksum (t : FileTree) (p : Path) : Except ChecksumError String :=
  match t.nodeOf p with
  | .error cause => .error (.unopened p cause)
  | .ok .directory => .error (.unread p .isADirectory)
  | .ok (.file content) => .ok (hexDigest (hashPieces .empty content).finish)

/-- The ASCII letters of a text in lower case. -/
def lowerCase (s : List Char) : List Char := s.map Char.toLower

/-- Whether a digest is the expected one. Blanks around the expected text and the case of its
letters do not matter. -/
def sameDigest (digest expected : String) : Bool :=
  lowerCase digest.toList == lowerCase (Text.trim expected.toList)

/-- Whether the file a path names has the expected digest. -/
def verify (t : FileTree) (p : Path) (expected : String) : Except ChecksumError Bool :=
  (checksum t p).map fun digest => sameDigest digest expected

end MessageArchive.Archive
