import MessageArchive.FileTree.Error

set_option autoImplicit false

/-! # Paths

A path is kept as it was written, since it is shown that way. What it names is decided by its
parts: the names between its slashes, empty ones left out.
-/

namespace MessageArchive

/-- A path as written, with `/` between the names. -/
structure Path where
  text : String
  deriving DecidableEq, Repr

namespace Path

/-- An absolute path starts at the root, any other at the working directory. -/
def isAbsolute (p : Path) : Bool := p.text.toList.head? == some '/'

def endsWithSlash (p : Path) : Bool := p.text.toList.getLast? == some '/'

/-- The names on the path, in order. The names `.` and `..` are kept. -/
def parts (p : Path) : List String :=
  ((p.text.toList.splitOn '/').filter fun part => !part.isEmpty).map String.ofList

/-- The path that leads from `base` on to `name`. An absolute name stands for itself. -/
def join (base : Path) (name : String) : Path :=
  if (Path.mk name).isAbsolute then ⟨name⟩
  else if base.text.isEmpty || base.endsWithSlash then ⟨base.text ++ name⟩
  else ⟨base.text ++ "/" ++ name⟩

/-- The names on the path without those that stay in place; a `.` at the start of a relative path
is kept, so that something is left of it. -/
def components (p : Path) : List String :=
  match p.parts with
  | [] => []
  | first :: rest =>
      let moving := rest.filter fun part => part != "."
      if first == "." && p.isAbsolute then moving else first :: moving

/-- The path with the given names. -/
def ofComponents (absolute : Bool) (names : List String) : Path :=
  ⟨(if absolute then "/" else "") ++ String.intercalate "/" names⟩

/-- The lists a list begins with, itself left out, the longest first. -/
def shorterStarts {α : Type} : List α → List (List α)
  | [] => []
  | a :: rest => (shorterStarts rest).map (a :: ·) ++ [[]]

/-- The path and the paths above it, up to the root or to the empty path. -/
def ancestors (p : Path) : List Path :=
  p :: (shorterStarts p.components).map (ofComponents p.isAbsolute)

/-- The longest path the operating system takes has one byte less than this. -/
def lengthLimit : Nat := 4096

/-- The longest name of a file or directory in bytes. -/
def nameLimit : Nat := 255

/-- Whether a path can be handed to the operating system at all. -/
def check (p : Path) : Except FileError Unit :=
  if '\x00' ∈ p.text.toList then .error .nulInPath
  else if p.text.isEmpty then .error .noSuchEntry
  else if lengthLimit ≤ p.text.utf8ByteSize then .error .nameTooLong
  else .ok ()

/-- The last part of the path. -/
def name? (p : Path) : Option String := p.components.getLast?

/-- The extension of the last name: what follows its last dot, if something precedes the dot. -/
def extension? (p : Path) : Option String :=
  match p.name? with
  | none => none
  | some name =>
      let chars := name.toList
      let after := (chars.reverse.takeWhile (· != '.')).reverse
      if name == ".." || chars.length ≤ after.length + 1 then none else some (String.ofList after)

end Path

end MessageArchive
