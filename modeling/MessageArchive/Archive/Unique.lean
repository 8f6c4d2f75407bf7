import MessageArchive.Archive.Name
import MessageArchive.FileTree.Operations

set_option autoImplicit false

/-! # Finding a name that is free

Two searches go through the candidates for a name, from the number 0 up to a limit. `uniquePath`
only looks: it gives the first candidate that names nothing. `claim` tries to make each candidate
as a new file and keeps the first that it could make, so what it gives is owned by nobody else.
-/

namespace MessageArchive.Archive

/-- The highest number that is tried when nothing else is asked for. -/
def defaultLimit : Nat := 1000

/-- The first of `more` candidates that names nothing, from the number `index` on. -/
def firstFree (t : FileTree) (base : Path) (name : String) : (more index : Nat) → Option Path
  | 0, _ => none
  | more + 1, index =>
      if t.pathExists (candidate base name index) then firstFree t base name more (index + 1)
      else some (candidate base name index)

/-- The first candidate that names nothing. It is not reserved. -/
def uniquePath (t : FileTree) (base : Path) (name : String) (limit : Nat) :
    Except ArchiveError Path :=
  match checkName name with
  | .error e => .error e
  | .ok () =>
      match firstFree t base name (limit + 1) 0 with
      | some path => .ok path
      | none => .error (.noUniqueName (base.join name) limit)

/-- A file that has been made for one archiver: the path it was made under, and where it is. -/
structure Claim where
  path : Path
  location : Location
  deriving DecidableEq, Repr

/-- Makes the first of `more` candidates that can be made, from the number `index` on. A candidate
that exists is passed over; any other failure ends the search. -/
def claimFrom (t : FileTree) (base : Path) (name : String) (limit : Nat) :
    (more index : Nat) → Except ArchiveError (FileTree × Claim)
  | 0, _ => .error (.noUniqueName (base.join name) limit)
  | more + 1, index =>
      match t.createNew (candidate base name index) with
      | .ok (made, location) => .ok (made, ⟨candidate base name index, location⟩)
      | .error .alreadyExists => claimFrom t base name limit more (index + 1)
      | .error cause => .error (.file (.createFile (candidate base name index)) cause)

/-- Makes an empty file under the first candidate that can be made. -/
def claim (t : FileTree) (base : Path) (name : String) (limit : Nat) :
    Except ArchiveError (FileTree × Claim) :=
  match checkName name with
  | .error e => .error e
  | .ok () => claimFrom t base name limit (limit + 1) 0

end MessageArchive.Archive
