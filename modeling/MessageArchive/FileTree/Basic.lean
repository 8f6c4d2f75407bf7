import MessageArchive.FileTree.Path

set_option autoImplicit false

/-! # File trees

A file tree holds directories and files under a root. There are no links, so each file and each
directory has exactly one place, its location. Two paths may name the same location; what a path
names is the subject of `FileTree.Walk`.
-/

namespace MessageArchive

/-- The content of a file. -/
abbrev Bytes := List UInt8

/-- The names that lead from an entry up to the root: its own name first. The root is `[]`. -/
abbrev Location := List String

/-- What stands at a location. -/
inductive Node where
  | directory
  | file (content : Bytes)
  deriving DecidableEq, Repr

/-- A file tree and the directory in it that relative paths start from. The root is a directory
and not among the entries. -/
structure FileTree where
  entries : List (Location × Node) := []
  workingDir : Location := []
  deriving DecidableEq, Repr

namespace FileTree

/-- The node of a location in a list of entries. -/
def findEntry (loc : Location) : List (Location × Node) → Option Node
  | [] => none
  | (l, node) :: rest => if l = loc then some node else findEntry loc rest

/-- What stands at a location, if anything. -/
def node? (t : FileTree) (loc : Location) : Option Node :=
  if loc = [] then some .directory else findEntry loc t.entries

/-- The tree without what stands at a location. -/
def erase (t : FileTree) (loc : Location) : FileTree :=
  { t with entries := t.entries.filter fun entry => entry.1 != loc }

/-- The tree with a node put at a location, in the place of what stood there. -/
def put (t : FileTree) (loc : Location) (node : Node) : FileTree :=
  { t with entries := (loc, node) :: (t.erase loc).entries }

/-- Whether there is a directory at a location. -/
def isDirAt (t : FileTree) (loc : Location) : Bool := t.node? loc == some .directory

/-! ## Reading after writing -/

theorem findEntry_filter_ne {loc l : Location} (h : l ≠ loc) (entries : List (Location × Node)) :
    findEntry l (entries.filter fun entry => entry.1 != loc) = findEntry l entries := by
  induction entries with
  | nil => rfl
  | cons entry rest ih =>
      obtain ⟨k, node⟩ := entry
      by_cases hk : k = loc
      · subst hk
        simp [findEntry, Ne.symm h, ih]
      · simp [findEntry, hk, ih]

theorem findEntry_filter_self (loc : Location) (entries : List (Location × Node)) :
    findEntry loc (entries.filter fun entry => entry.1 != loc) = none := by
  induction entries with
  | nil => rfl
  | cons entry rest ih =>
      obtain ⟨k, node⟩ := entry
      by_cases hk : k = loc
      · simp [hk, ih]
      · simp [findEntry, hk, ih]

theorem filter_eq_self_of_findEntry_eq_none {loc : Location} {entries : List (Location × Node)}
    (h : findEntry loc entries = none) :
    (entries.filter fun entry => entry.1 != loc) = entries := by
  induction entries with
  | nil => rfl
  | cons entry rest ih =>
      obtain ⟨k, node⟩ := entry
      by_cases hk : k = loc
      · simp [findEntry, hk] at h
      · simp only [findEntry, hk, if_false] at h
        simp [hk, ih h]

@[simp] theorem node?_root (t : FileTree) : t.node? [] = some .directory := rfl

theorem node?_put_self (t : FileTree) {loc : Location} (h : loc ≠ []) (node : Node) :
    (t.put loc node).node? loc = some node := by
  simp [node?, put, findEntry, h]

theorem node?_put_ne (t : FileTree) {loc l : Location} (h : l ≠ loc) (node : Node) :
    (t.put loc node).node? l = t.node? l := by
  simp only [node?, put, erase, findEntry, Ne.symm h, if_false, findEntry_filter_ne h]

theorem node?_erase_self (t : FileTree) {loc : Location} (h : loc ≠ []) :
    (t.erase loc).node? loc = none := by
  simp [node?, erase, h, findEntry_filter_self]

theorem node?_erase_ne (t : FileTree) {loc l : Location} (h : l ≠ loc) :
    (t.erase loc).node? l = t.node? l := by
  simp only [node?, erase, findEntry_filter_ne h]

/-- Taking away what is not there changes nothing. -/
theorem erase_eq_self {t : FileTree} {loc : Location} (hroot : loc ≠ [])
    (h : t.node? loc = none) : t.erase loc = t := by
  simp only [node?, hroot, if_false] at h
  simp [erase, filter_eq_self_of_findEntry_eq_none h]

/-- Putting something at a free location and taking it away restores the tree. -/
theorem erase_put {t : FileTree} {loc : Location} (hroot : loc ≠ []) (h : t.node? loc = none)
    (node : Node) : (t.put loc node).erase loc = t := by
  have herase := erase_eq_self hroot h
  simp only [erase] at herase
  simpa [put, erase] using herase

/-- Of two nodes put at one location the second stays. -/
theorem put_put (t : FileTree) (loc : Location) (a b : Node) :
    (t.put loc a).put loc b = t.put loc b := by
  simp [put, erase, List.filter_filter]

end FileTree

end MessageArchive
