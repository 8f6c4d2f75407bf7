import MessageArchive.FileTree.Basic

set_option autoImplicit false

/-! # What a path names

A path is followed name by name, from the root or from the working directory. Each name but the
last has to name a directory. The name `.` stays where it is, and `..` goes up one directory,
which at the root is the root again.

`locate` finds the location a path names. `slot` finds the place where an operation that makes
or removes the last name of the path does its work.
-/

namespace MessageArchive

namespace FileTree

/-- Succeeds where there is a directory. -/
def expectDir (t : FileTree) (loc : Location) : Except FileError Unit :=
  match t.node? loc with
  | none => .error .noSuchEntry
  | some (.file _) => .error .notADirectory
  | some .directory => .ok ()

/-- Goes from a directory to what a name in it names. -/
def step (t : FileTree) (here : Location) (name : String) : Except FileError Location :=
  match t.expectDir here with
  | .error e => .error e
  | .ok () =>
      if name = "." then .ok here
      else if name = ".." then .ok here.tail
      else if Path.nameLimit < name.utf8ByteSize then .error .nameTooLong
      else if (t.node? (name :: here)).isSome then .ok (name :: here)
      else .error .noSuchEntry

/-- Follows names from a location. -/
def walk (t : FileTree) : Location → List String → Except FileError Location
  | here, [] => .ok here
  | here, name :: rest =>
      match t.step here name with
      | .error e => .error e
      | .ok next => t.walk next rest

/-- Where a path starts. -/
def start (t : FileTree) (p : Path) : Location := if p.isAbsolute then [] else t.workingDir

/-- The location a path names. With a slash at its end it has to be a directory. -/
def locate (t : FileTree) (p : Path) : Except FileError Location :=
  match p.check with
  | .error e => .error e
  | .ok () =>
      match t.walk (t.start p) p.parts with
      | .error e => .error e
      | .ok loc =>
          if p.endsWithSlash then
            match t.expectDir loc with
            | .error e => .error e
            | .ok () => .ok loc
          else .ok loc

/-- Whether a path names something. -/
def pathExists (t : FileTree) (p : Path) : Bool := (t.locate p).isOk

/-- Whether a path names a directory. -/
def isDir (t : FileTree) (p : Path) : Bool :=
  match t.locate p with
  | .error _ => false
  | .ok loc => t.isDirAt loc

/-- The directory and the name that the last part of a path stands for. There is no such name when
the path ends in `.` or `..` or is made of slashes. -/
def slot (t : FileTree) (p : Path) : Except FileError (Option (Location × String)) :=
  match p.check with
  | .error e => .error e
  | .ok () =>
      match p.parts.getLast? with
      | none => .ok none
      | some name =>
          match t.walk (t.start p) p.parts.dropLast with
          | .error e => .error e
          | .ok dir =>
              match t.expectDir dir with
              | .error e => .error e
              | .ok () =>
                  if name = "." ∨ name = ".." then .ok none else .ok (some (dir, name))

end FileTree

end MessageArchive
