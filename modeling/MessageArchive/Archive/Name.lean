import MessageArchive.Error

set_option autoImplicit false

/-! # Names of archive files

A name may lead into directories below the archive directory, but not out of it: it must not be
absolute, and none of its parts may be `..`. When a name is taken, the name with `.1` behind it
is tried, then the one with `.2`, and so on.
-/

namespace MessageArchive.Archive

/-- Whether a name would lead out of the directory it is joined to. -/
def leavesDirectory (name : String) : Bool :=
  let path := Path.mk name
  path.isAbsolute || path.parts.contains ".."

/-- Refuses a name that leads out of the archive directory. -/
def checkName (name : String) : Except ArchiveError Unit :=
  if leavesDirectory name then .error (.malformed (.leavesDirectory name)) else .ok ()

/-- A name with the number it is distinguished by; the number 0 is left out. -/
def numbered (name : String) (index : Nat) : String :=
  if index = 0 then name else name ++ "." ++ toString index

/-- The path that is tried for a number. -/
def candidate (base : Path) (name : String) (index : Nat) : Path :=
  base.join (numbered name index)

end MessageArchive.Archive
