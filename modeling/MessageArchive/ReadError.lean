import MessageArchive.FileTree.Operations

set_option autoImplicit false

/-! # Documents that cannot be read

Settings and message envelopes are read from files. Reading fails when the file has no text, or
when the text is not a document of the kind that is wanted.
-/

namespace MessageArchive

/-- The kinds of documents. -/
inductive DocumentKind where
  | settings
  | envelope
  deriving DecidableEq, Repr

def DocumentKind.text : DocumentKind → String
  | .settings => "config"
  | .envelope => "message envelope"

/-- Why a document is not read. -/
inductive ReadError where
  /-- The file has no text. -/
  | unreadable (kind : DocumentKind) (path : Path) (cause : FileError)
  /-- The text is not a document of the kind. -/
  | unparsable (kind : DocumentKind) (path : Path)
  deriving DecidableEq, Repr

namespace ReadError

/-- What was being done, in words. -/
def message : ReadError → String
  | .unreadable kind path _ => "read " ++ kind.text ++ " " ++ path.text
  | .unparsable kind path => "parse " ++ kind.text ++ " " ++ path.text

/-- The cause that lies in the file tree. -/
def cause? : ReadError → Option FileError
  | .unreadable _ _ cause => some cause
  | .unparsable _ _ => none

end ReadError

/-- Reads a document from a file, given a reader of its text. -/
def FileTree.readDocument {α : Type} (t : FileTree) (kind : DocumentKind) (p : Path)
    (parse : String → Option α) : Except ReadError α :=
  match t.textOf p with
  | .error cause => .error (.unreadable kind p cause)
  | .ok text =>
      match parse text with
      | none => .error (.unparsable kind p)
      | some a => .ok a

end MessageArchive
