import MessageArchive.Proofs.FileTree.Joining
import MessageArchive.Proofs.FileTree.Keeping

set_option autoImplicit false

/-! # Looking for a file and making one

Whether a path names something and whether a file can be made there are different questions, and a
path may be refused by both: its directory may be missing, a name on it may be too long. Still the
answers do not contradict each other. A file is said to exist already only where the path names
something (`pathExists_of_alreadyExists`). For a path that ends in a proper name the converse holds
as well (`createNew_of_exists`), and where such a path names nothing, a file can be made if the
directory is there and the path is legal (`createNew_of_not_exists`).
-/

namespace MessageArchive

namespace Path

/-- What the path stands for in its directory: the text behind its last slash. -/
def ownName (p : Path) : String := String.ofList (behindSlash p.text.toList)

/-- The directory part of the path: the text up to its last slash, and the working directory where
there is no slash. -/
def directory (p : Path) : Path :=
  if upToSlash p.text.toList = [] then ⟨"."⟩ else ⟨String.ofList (upToSlash p.text.toList)⟩

/-- A text behind the last slash that can be the name of a file. -/
def IsProper (s : List Char) : Prop := s ≠ [] ∧ s ≠ ['.'] ∧ s ≠ ['.', '.']

/-- A path that the operating system takes for the path of a file. -/
structure Legal (p : Path) : Prop where
  noNul : '\x00' ∉ p.text.toList
  short : p.text.utf8ByteSize < lengthLimit
  shortName : p.ownName.utf8ByteSize ≤ nameLimit

variable {p : Path}

theorem check_eq_ok (hnul : '\x00' ∉ p.text.toList) (hne : p.text.toList ≠ [])
    (hshort : p.text.utf8ByteSize < lengthLimit) : p.check = .ok () := by
  have hempty : p.text.isEmpty = false := by
    rw [← Bool.not_eq_true, String.isEmpty_iff]
    intro h
    exact hne (by rw [h]; rfl)
  simp [check, hnul, hempty, Nat.not_le.2 hshort]

theorem ownName_toList (p : Path) : p.ownName.toList = behindSlash p.text.toList :=
  String.toList_ofList

/-- The names of the directory come first, and the path's own name last. -/
theorem parts_of_isProper (h : IsProper (behindSlash p.text.toList)) :
    p.parts = namesIn (upToSlash p.text.toList) ++ [p.ownName] := by
  have hlast := namesIn_of_not_mem (slash_not_mem_behindSlash p.text.toList)
  rw [if_neg h.1] at hlast
  rw [parts_eq_namesIn, ownName, ← hlast, ← namesIn_append (closes_upToSlash _),
    upToSlash_append_behindSlash]

theorem ownName_ne (h : IsProper (behindSlash p.text.toList)) :
    p.ownName ≠ "." ∧ p.ownName ≠ ".." := by
  refine ⟨fun heq => h.2.1 ?_, fun heq => h.2.2 ?_⟩
  · rw [← ownName_toList, heq]
    rfl
  · rw [← ownName_toList, heq]
    rfl

/-- A path is absolute when its directory is. -/
theorem isAbsolute_directory (p : Path) : p.directory.isAbsolute = p.isAbsolute := by
  have htext := upToSlash_append_behindSlash p.text.toList
  rw [directory]
  split
  next hup =>
    rw [hup, List.nil_append] at htext
    have hrel : p.isAbsolute = false := by
      rw [isAbsolute, beq_eq_false_iff_ne, ← htext]
      intro hhead
      exact slash_not_mem_behindSlash _ (List.mem_of_head? hhead)
    rw [hrel]
    rfl
  next hup =>
    rw [isAbsolute, isAbsolute, String.toList_ofList, ← htext, List.head?_append_of_ne_nil _ hup]
    rw [htext]

theorem endsWithSlash_of_isProper (h : IsProper (behindSlash p.text.toList)) :
    p.endsWithSlash = false := by
  rw [endsWithSlash, beq_eq_false_iff_ne]
  intro hlast
  rw [← upToSlash_append_behindSlash p.text.toList, List.getLast?_append_of_ne_nil _ h.1] at hlast
  exact slash_not_mem_behindSlash _ (List.mem_of_getLast? hlast)

end Path

namespace FileTree

open MessageArchive.Path

/-- The working directory is in the tree, and so are the directories above it. -/
def Anchored (t : FileTree) : Prop := ∀ loc, loc <:+ t.workingDir → t.node? loc = some .directory

variable {t : FileTree} {p : Path}

theorem anchored_of_root (h : t.workingDir = []) : t.Anchored := by
  intro loc hloc
  rw [h] at hloc
  rw [List.suffix_nil.1 hloc, node?_root]

theorem pathExists_iff : t.pathExists p = true ↔ ∃ loc, t.locate p = .ok loc := by
  rw [pathExists]
  cases t.locate p with
  | error e => simp [Except.isOk, Except.toBool]
  | ok loc => simp [Except.isOk, Except.toBool]

theorem walk_of_locate {loc : Location} (h : t.locate p = .ok loc) :
    t.walk (t.start p) p.parts = .ok loc := by
  rw [locate] at h
  split at h
  · exact absurd h (by simp)
  split at h
  · exact absurd h (by simp)
  next found hwalk =>
    split at h
    · split at h
      · exact absurd h (by simp)
      · exact Except.ok.inj h ▸ hwalk
    · exact Except.ok.inj h ▸ hwalk

theorem Anchored.start (h : t.Anchored) (p : Path) {loc : Location} (hloc : loc <:+ t.start p) :
    t.node? loc = some .directory := by
  rw [FileTree.start] at hloc
  split at hloc
  · rw [List.suffix_nil.1 hloc, node?_root]
  · exact h loc hloc

/-- Whatever a path leads to, there are directories above it. -/
theorem walk_above {here loc : Location} {names : List String}
    (habove : ∀ l, l <:+ here.tail → t.node? l = some .directory)
    (h : t.walk here names = .ok loc) : ∀ l, l <:+ loc.tail → t.node? l = some .directory := by
  induction names generalizing here with
  | nil =>
      obtain rfl := Except.ok.inj h
      exact habove
  | cons name rest ih =>
      rw [walk] at h
      split at h
      · exact absurd h (by simp)
      next next hstep =>
        refine ih ?_ h
        -- A step stays, goes up, or goes down from `here`, which is a directory.
        intro l hl
        rw [step_eq_follow hstep, follow] at hl
        split at hl
        · exact habove l hl
        · rw [follow] at hl
          split at hl
          · exact habove l (hl.trans (List.tail_suffix _))
          · rw [follow, List.tail_cons] at hl
            cases here with
            | nil => rw [List.suffix_nil.1 hl, node?_root]
            | cons top above =>
                rcases List.suffix_cons_iff.1 hl with rfl | hl
                · exact step_isDir hstep
                · exact habove l hl

/-! ## Following a path

What goes wrong on the way to a place is never that there is something already. -/

theorem check_ne_alreadyExists : p.check ≠ .error .alreadyExists := by
  rw [check]
  split
  · simp
  · split
    · simp
    · split
      · simp
      · simp

theorem expectDir_ne_alreadyExists {loc : Location} :
    t.expectDir loc ≠ .error .alreadyExists := by
  rw [expectDir]
  split
  · simp
  · simp
  · simp

theorem step_ne_alreadyExists {here : Location} {name : String} :
    t.step here name ≠ .error .alreadyExists := by
  rw [step]
  split
  next e he =>
    intro heq
    exact expectDir_ne_alreadyExists (he.trans (Except.error.inj heq ▸ rfl))
  · split
    · simp
    · split
      · simp
      · split
        · simp
        · split
          · simp
          · simp

theorem walk_ne_alreadyExists {here : Location} {names : List String} :
    t.walk here names ≠ .error .alreadyExists := by
  induction names generalizing here with
  | nil => simp [walk]
  | cons name rest ih =>
      rw [walk]
      split
      next e he =>
        intro heq
        exact step_ne_alreadyExists (he.trans (Except.error.inj heq ▸ rfl))
      · exact ih

theorem slot_ne_alreadyExists : t.slot p ≠ .error .alreadyExists := by
  rw [slot]
  split
  next e he =>
    intro heq
    exact check_ne_alreadyExists (he.trans (Except.error.inj heq ▸ rfl))
  · split
    · simp
    · split
      next e he =>
        intro heq
        exact walk_ne_alreadyExists (he.trans (Except.error.inj heq ▸ rfl))
      · split
        next e he =>
          intro heq
          exact expectDir_ne_alreadyExists (he.trans (Except.error.inj heq ▸ rfl))
        · split
          · simp
          · simp

/-! ## What is there -/

theorem HasSlot.fileSlot {dir : Location} {name : String} (h : t.HasSlot p dir name)
    (hslash : p.endsWithSlash = false) (hshort : name.utf8ByteSize ≤ nameLimit) :
    t.FileSlot p (t.target p) :=
  ⟨⟨dir, name, h, hshort, h.target⟩, hslash⟩

/-- A path with a slot for files names what is at its slot. -/
theorem FileSlot.pathExists_eq {loc : Location} (h : t.FileSlot p loc) :
    t.pathExists p = (t.node? loc).isSome := by
  cases hnode : t.node? loc with
  | none => exact h.not_exists hnode
  | some node => exact pathExists_iff.2 ⟨loc, h.locate hnode⟩

/-- At a slot for files all that matters is whether something is there. -/
theorem createNew_of_fileSlot {loc : Location} (h : t.FileSlot p loc) :
    t.createNew p =
      if t.pathExists p then .error .alreadyExists else .ok (t.put loc (.file []), loc) := by
  rw [h.pathExists_eq]
  obtain ⟨dir, name, hslot, hshort, rfl⟩ := h.slot
  rw [createNew, slot_eq_some_iff.2 hslot]
  simp only [h.noSlash, Bool.false_eq_true, if_false, Nat.not_lt.2 hshort]

/-- What leads to a directory exists, also with a slash at its end. -/
theorem pathExists_of_walk {loc : Location} (hcheck : p.check = .ok ())
    (hwalk : t.walk (t.start p) p.parts = .ok loc) (hdir : t.node? loc = some .directory) :
    t.pathExists p = true := by
  refine pathExists_iff.2 ⟨loc, ?_⟩
  simp only [locate, hcheck, hwalk, expectDir_eq_ok_iff.2 hdir, ite_self]

/-- A path without a slot has no parts, or its last part is `.` or `..` behind a directory. -/
theorem slot_eq_none_cases (h : t.slot p = .ok none) :
    p.check = .ok () ∧
      (p.parts = [] ∨ ∃ names last dir, p.parts = names ++ [last] ∧ (last = "." ∨ last = "..") ∧
        t.walk (t.start p) names = .ok dir ∧ t.node? dir = some .directory) := by
  rw [slot] at h
  split at h
  · exact absurd h (by simp)
  next hcheck =>
    refine ⟨hcheck, ?_⟩
    split at h
    next hlast => exact Or.inl (List.getLast?_eq_none_iff.1 hlast)
    next last hlast =>
      obtain ⟨names, hparts⟩ := List.getLast?_eq_some_iff.1 hlast
      rw [hparts, List.dropLast_concat] at h
      split at h
      · exact absurd h (by simp)
      next dir hwalk =>
        split at h
        · exact absurd h (by simp)
        next hdir =>
          have hdots : last = "." ∨ last = ".." := by
            by_contra hname
            rw [if_neg hname] at h
            exact absurd h (by simp)
          exact Or.inr ⟨names, last, dir, hparts, hdots, hwalk, expectDir_eq_ok_iff.1 hdir⟩

/-- A path without a slot leads to a directory, by `.` or `..` or by nothing but slashes. -/
theorem pathExists_of_slot_eq_none (hanchored : t.Anchored) (h : t.slot p = .ok none) :
    t.pathExists p = true := by
  obtain ⟨hcheck, hparts | ⟨names, last, dir, hparts, hdots, hwalk, hdir⟩⟩ := slot_eq_none_cases h
  · exact pathExists_of_walk hcheck (hparts ▸ rfl) (hanchored.start p (List.suffix_refl _))
  · have habove := walk_above (fun l hl => hanchored.start p (hl.trans (List.tail_suffix _))) hwalk
    have hlast : ∀ loc, t.step dir last = .ok loc → t.walk (t.start p) p.parts = .ok loc := by
      intro loc hstep
      simp only [hparts, walk_append, hwalk, walk, hstep]
    rcases hdots with rfl | rfl
    · exact pathExists_of_walk hcheck (hlast dir (by simp [step, expectDir_eq_ok_iff.2 hdir])) hdir
    · exact pathExists_of_walk hcheck
        (hlast dir.tail (by simp [step, expectDir_eq_ok_iff.2 hdir])) (habove _ (List.suffix_refl _))

/-- A path that goes on from a directory and has no `..` behind it leads to a directory when it has
no slot. -/
theorem pathExists_of_slot_eq_none_below {base : Path} {more : List String}
    (hbase : t.isDir base = true) (hparts : p.parts = base.parts ++ more)
    (habsolute : p.isAbsolute = base.isAbsolute) (hup : ".." ∉ more) (h : t.slot p = .ok none) :
    t.pathExists p = true := by
  obtain ⟨loc, hlocate, hnode⟩ := isDir_iff.1 hbase
  have hstart : t.start p = t.start base := by rw [start, start, habsolute]
  have hwalkBase : t.walk (t.start p) base.parts = .ok loc := hstart ▸ walk_of_locate hlocate
  obtain ⟨hcheck, hnone⟩ := slot_eq_none_cases h
  obtain rfl | ⟨front, final, rfl⟩ := List.eq_nil_or_concat more
  · rw [List.append_nil] at hparts
    exact pathExists_of_walk hcheck (hparts ▸ hwalkBase) hnode
  · rw [List.concat_eq_append] at hparts hup
    rcases hnone with hnil | ⟨names, last, dir, hnames, hdots, hwalk, hdir⟩
    · rw [hparts] at hnil
      exact absurd hnil (by simp)
    · rw [hparts, ← List.append_assoc] at hnames
      obtain ⟨rfl, hfinal⟩ := List.append_inj' hnames rfl
      obtain rfl : final = last := by simpa using hfinal
      -- It is not `..` that the path ends in, so it stays where it is.
      have hdot : final = "." := hdots.resolve_right fun heq => hup (by simp [heq])
      subst hdot
      refine pathExists_of_walk hcheck ?_ hdir
      simp only [hparts, ← List.append_assoc, walk_append, hwalk, walk, step,
        expectDir_eq_ok_iff.2 hdir, if_true]

/-- What is said to exist already is named by the path, if it is so where the path has no slot. -/
theorem pathExists_of_taken (hnone : t.slot p = .ok none → t.pathExists p = true)
    (h : t.createNew p = .error .alreadyExists) : t.pathExists p = true := by
  cases hslot : t.slot p with
  | error e =>
      rw [createNew, hslot] at h
      exact absurd (hslot.trans (Except.error.inj h ▸ rfl)) slot_ne_alreadyExists
  | ok place =>
      cases place with
      | none => exact hnone hslot
      | some found =>
          obtain ⟨dir, name⟩ := found
          have hhas := slot_eq_some_iff.1 hslot
          simp only [createNew, hslot] at h
          split at h
          · exact absurd h (by simp)
          next hslash =>
            split at h
            · exact absurd h (by simp)
            next hlong =>
              split at h
              next hsome =>
                obtain ⟨node, hnode⟩ := Option.isSome_iff_exists.1 hsome
                have hloc := hhas.locate (fun hs => absurd hs hslash) (Nat.not_lt.1 hlong) hnode
                exact pathExists_iff.2 ⟨_, hloc⟩
              · exact absurd h (by simp)

/-- Only what the path names is said to exist already. -/
theorem pathExists_of_alreadyExists (hanchored : t.Anchored)
    (h : t.createNew p = .error .alreadyExists) : t.pathExists p = true :=
  pathExists_of_taken (pathExists_of_slot_eq_none hanchored) h

/-- A path that ends in a proper name has a slot for files where it names something. -/
theorem fileSlot_of_exists (hproper : IsProper (behindSlash p.text.toList))
    (h : t.pathExists p = true) : t.FileSlot p (t.target p) := by
  obtain ⟨loc, hloc⟩ := pathExists_iff.1 h
  obtain ⟨hdot, hup⟩ := ownName_ne hproper
  have hparts := parts_of_isProper hproper
  rw [locate] at hloc
  split at hloc
  · exact absurd hloc (by simp)
  next hcheck =>
    rw [hparts, walk_append] at hloc
    split at hloc
    · exact absurd hloc (by simp)
    next found hwalk =>
      split at hwalk
      · exact absurd hwalk (by simp)
      next dir habove =>
        rw [walk] at hwalk
        split at hwalk
        · exact absurd hwalk (by simp)
        next next hstep =>
          obtain ⟨hdir, hshort, -, -⟩ := (step_name_iff hdot hup).1 hstep
          have hslot : t.HasSlot p dir p.ownName := ⟨hcheck, ⟨_, hparts, habove⟩, hdir, hdot, hup⟩
          exact hslot.fileSlot (endsWithSlash_of_isProper hproper) hshort

/-- A path that ends in a proper name and names something cannot be made anew. -/
theorem createNew_of_exists (hproper : IsProper (behindSlash p.text.toList))
    (h : t.pathExists p = true) : t.createNew p = .error .alreadyExists := by
  rw [createNew_of_fileSlot (fileSlot_of_exists hproper h), if_pos h]

/-! ## What is not there -/

/-- The directory that a path's own name has its place in, when there is one. -/
theorem walk_directory (h : t.isDir p.directory = true) :
    ∃ dir, t.walk (t.start p) (namesIn (upToSlash p.text.toList)) = .ok dir ∧
      t.node? dir = some .directory := by
  obtain ⟨dir, hdir, hnode⟩ := isDir_iff.1 h
  refine ⟨dir, ?_, hnode⟩
  have hwalk := walk_of_locate hdir
  rw [start, isAbsolute_directory, ← start] at hwalk
  rw [directory] at hwalk
  split at hwalk
  next hup =>
    -- There is no slash, so the directory is the one the path starts from.
    have hhere : dir = follow (t.start p) ["."] := walk_eq_follow hwalk
    rw [hup, hhere]
    rfl
  next hup =>
    rw [parts_eq_namesIn, String.toList_ofList] at hwalk
    exact hwalk

/-- A legal path that ends in a proper name has a slot for files in a directory that is there. -/
theorem fileSlot_of_legal (hproper : IsProper (behindSlash p.text.toList))
    (hdir : t.isDir p.directory = true) (hlegal : p.Legal) : t.FileSlot p (t.target p) := by
  obtain ⟨dir, hwalk, hnode⟩ := walk_directory hdir
  obtain ⟨hdot, hup⟩ := ownName_ne hproper
  have hne : p.text.toList ≠ [] := by
    intro hnil
    rw [hnil] at hproper
    exact hproper.1 rfl
  have hslot : t.HasSlot p dir p.ownName :=
    ⟨check_eq_ok hlegal.noNul hne hlegal.short, ⟨_, parts_of_isProper hproper, hwalk⟩, hnode, hdot,
      hup⟩
  exact hslot.fileSlot (endsWithSlash_of_isProper hproper) hlegal.shortName

/-- A legal path that names nothing can be made in a directory that is there. -/
theorem createNew_of_not_exists (hproper : IsProper (behindSlash p.text.toList))
    (h : t.pathExists p = false) (hdir : t.isDir p.directory = true) (hlegal : p.Legal) :
    t.createNew p = .ok (t.put (t.target p) (.file []), t.target p) := by
  rw [createNew_of_fileSlot (fileSlot_of_legal hproper hdir hlegal), h]
  rfl

end FileTree

end MessageArchive
