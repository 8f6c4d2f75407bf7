import MessageArchive.FileTree.Basic

set_option autoImplicit false

/-! # What has been made in a file tree

The entries of a tree that an older tree does not have, or has otherwise. They are given in the
order they were put into the tree in, so a directory comes before what stands in it.
-/

namespace MessageArchive.FileTree

/-- An entry of a tree that an older tree does not have. -/
inductive Change where
  | directory (loc : Location)
  /-- A file where there was nothing. -/
  | newFile (loc : Location) (content : Bytes)
  /-- A file that was there, with a content it did not have. -/
  | newContent (loc : Location) (content : Bytes)
  deriving DecidableEq, Repr

/-- What is new about an entry, if anything. -/
def changeOf (before : FileTree) : Location × Node → Option Change
  | (loc, .directory) =>
      if before.node? loc = some .directory then none else some (.directory loc)
  | (loc, .file content) =>
      match before.node? loc with
      | none => some (.newFile loc content)
      | some node => if node = .file content then none else some (.newContent loc content)

/-- What has been put into a tree. -/
def changes (before after : FileTree) : List Change :=
  after.entries.reverse.filterMap before.changeOf

end MessageArchive.FileTree
