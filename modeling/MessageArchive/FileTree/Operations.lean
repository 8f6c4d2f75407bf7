import MessageArchive.FileTree.Walk
import MessageArchive.Text.Utf8

set_option autoImplicit false

/-! # Operations on file trees

Each operation takes a tree and says what becomes of it. An operation that fails leaves the tree
as it was, except for `makeDirs`, which may have made some of the directories it was asked for.
-/

namespace MessageArchive

namespace FileTree

/-! ## Reading -/

/-- What a path names. -/
def nodeOf (t : FileTree) (p : Path) : Except FileError Node :=
  match t.locate p with
  | .error e => .error e
  | .ok loc =>
      match t.node? loc with
      | none => .error .noSuchEntry
      | some node => .ok node

/-- The content of the file a path names. -/
def contentOf (t : FileTree) (p : Path) : Except FileError Bytes :=
  match t.nodeOf p with
  | .error e => .error e
  | .ok .directory => .error .isADirectory
  | .ok (.file content) => .ok content

/-- The content of the file a path names, as text. -/
def textOf (t : FileTree) (p : Path) : Except FileError String :=
  match t.contentOf p with
  | .error e => .error e
  | .ok content =>
      match Text.ofUtf8? content with
      | none => .error .notText
      | some text => .ok text

/-! ## Making files -/

/-- Makes an empty file where there is nothing, and fails where there is something. The second
component of a success is the location of the new file. -/
def createNew (t : FileTree) (p : Path) : Except FileError (FileTree × Location) :=
  match t.slot p with
  | .error e => .error e
  | .ok none => .error .alreadyExists
  | .ok (some (dir, name)) =>
      -- A slash at the end asks for a directory. This is refused before anything is looked up.
      if p.endsWithSlash then .error .isADirectory
      else if Path.nameLimit < name.utf8ByteSize then .error .nameTooLong
      else if (t.node? (name :: dir)).isSome then .error .alreadyExists
      else .ok (t.put (name :: dir) (.file []), name :: dir)

/-- Appends to the file at a location. Nothing happens where there is no file any more. -/
def appendAt (t : FileTree) (loc : Location) (data : Bytes) : FileTree :=
  match t.node? loc with
  | some (.file content) => t.put loc (.file (content ++ data))
  | _ => t

/-- The location of the file that a path names or would name. -/
def fileSlot (t : FileTree) (p : Path) : Except FileError Location :=
  match t.slot p with
  | .error e => .error e
  | .ok none => .error .isADirectory
  | .ok (some (dir, name)) =>
      if p.endsWithSlash then .error .isADirectory
      else if Path.nameLimit < name.utf8ByteSize then .error .nameTooLong
      else if t.isDirAt (name :: dir) then .error .isADirectory
      else .ok (name :: dir)

/-- Makes the file a path names, or replaces its content. -/
def overwrite (t : FileTree) (p : Path) (content : Bytes) : Except FileError FileTree :=
  match t.fileSlot p with
  | .error e => .error e
  | .ok loc => .ok (t.put loc (.file content))

/-- Makes an empty file, or leaves the file that is there as it is. -/
def touch (t : FileTree) (p : Path) : Except FileError FileTree :=
  match t.fileSlot p with
  | .error e => .error e
  | .ok loc =>
      match t.node? loc with
      | some _ => .ok t
      | none => .ok (t.put loc (.file []))

/-- Removes the file a path names. -/
def remove (t : FileTree) (p : Path) : Except FileError FileTree :=
  match t.slot p with
  | .error e => .error e
  | .ok none => .error .isADirectory
  | .ok (some (dir, name)) =>
      if Path.nameLimit < name.utf8ByteSize then .error .nameTooLong
      else
        match t.node? (name :: dir) with
        | none => .error .noSuchEntry
        | some .directory => .error .isADirectory
        | some (.file _) =>
            if p.endsWithSlash then .error .notADirectory else .ok (t.erase (name :: dir))

/-! ## Making directories -/

/-- Makes one directory. -/
def makeDir (t : FileTree) (p : Path) : Except FileError FileTree :=
  match t.slot p with
  | .error e => .error e
  | .ok none => .error .alreadyExists
  | .ok (some (dir, name)) =>
      if Path.nameLimit < name.utf8ByteSize then .error .nameTooLong
      else if (t.node? (name :: dir)).isSome then .error .alreadyExists
      else .ok (t.put (name :: dir) .directory)

/-- Makes the first directory of the list; when what is above it is missing, the rest of the list
first. -/
def makeDirsOf (t : FileTree) : List Path → Except FileError Unit × FileTree
  | [] => (.ok (), t)
  | p :: above =>
      if p.text.isEmpty then (.ok (), t)
      else
        match t.makeDir p with
        | .ok made => (.ok (), made)
        | .error .noSuchEntry =>
            -- What lies above is missing. It is made first, and stays even if `p` fails after all.
            match t.makeDirsOf above with
            | (.error e, tried) => (.error e, tried)
            | (.ok (), tried) =>
                match tried.makeDir p with
                | .ok made => (.ok (), made)
                | .error e => if tried.isDir p then (.ok (), tried) else (.error e, tried)
        | .error e => if t.isDir p then (.ok (), t) else (.error e, t)

/-- Makes a directory and those above it that are missing. -/
def makeDirs (t : FileTree) (p : Path) : Except FileError Unit × FileTree :=
  t.makeDirsOf p.ancestors

end FileTree

end MessageArchive
