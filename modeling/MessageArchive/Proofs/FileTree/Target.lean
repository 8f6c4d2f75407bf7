import MessageArchive.FileTree.Walk

set_option autoImplicit false

/-! # Where a path leads

Without links, the location that a path names is a matter of its names alone: `.` stays, `..` goes
up, any other name goes down. The tree only decides whether the path can be followed. `target` is
this location; `locate` and `slot` give nothing else (`locate_eq_target`, `HasSlot.target`).
-/

namespace MessageArchive.FileTree

/-- The location that names lead to from another one. -/
def follow : Location → List String → Location
  | here, [] => here
  | here, name :: rest =>
      if name = "." then follow here rest
      else if name = ".." then follow here.tail rest
      else follow (name :: here) rest

/-- The location a path leads to. -/
def target (t : FileTree) (p : Path) : Location := follow (t.start p) p.parts

theorem follow_append (here : Location) (names more : List String) :
    follow here (names ++ more) = follow (follow here names) more := by
  induction names generalizing here with
  | nil => rfl
  | cons name rest ih =>
      simp only [List.cons_append, follow]
      split
      · exact ih here
      · split
        · exact ih here.tail
        · exact ih (name :: here)

theorem follow_name {name : String} (hdot : name ≠ ".") (hup : name ≠ "..") (here : Location) :
    follow here [name] = name :: here := by
  simp [follow, hdot, hup]

/-! ## Following names in a tree -/

variable {t : FileTree} {p : Path}

theorem expectDir_eq_ok_iff {loc : Location} :
    t.expectDir loc = .ok () ↔ t.node? loc = some .directory := by
  rw [expectDir]
  split
  next h => simp [h]
  next content h => simp [h]
  next h => simp [h]

theorem isDirAt_iff {loc : Location} : t.isDirAt loc = true ↔ t.node? loc = some .directory := by
  rw [isDirAt, beq_iff_eq]

/-- A name is followed from a directory only. -/
theorem step_isDir {here next : Location} {name : String} (h : t.step here name = .ok next) :
    t.node? here = some .directory := by
  rw [step] at h
  split at h
  · exact absurd h (by simp)
  next hdir => exact expectDir_eq_ok_iff.1 hdir

theorem step_eq_follow {here next : Location} {name : String} (h : t.step here name = .ok next) :
    next = follow here [name] := by
  rw [step] at h
  split at h
  · exact absurd h (by simp)
  simp only [follow]
  split at h
  · rw [if_pos ‹_›]
    exact (Except.ok.inj h).symm
  rw [if_neg ‹_›]
  split at h
  · rw [if_pos ‹_›]
    exact (Except.ok.inj h).symm
  rw [if_neg ‹_›]
  split at h
  · exact absurd h (by simp)
  split at h
  · exact (Except.ok.inj h).symm
  · exact absurd h (by simp)

theorem step_name_iff {here next : Location} {name : String} (hdot : name ≠ ".")
    (hup : name ≠ "..") :
    t.step here name = .ok next ↔
      t.node? here = some .directory ∧ name.utf8ByteSize ≤ Path.nameLimit ∧
        next = name :: here ∧ (t.node? (name :: here)).isSome := by
  rw [step]
  split
  next e hdir =>
    have hno : t.node? here ≠ some .directory := fun hd => by
      rw [expectDir_eq_ok_iff.2 hd] at hdir
      exact absurd hdir (by simp)
    simp [hno]
  next hdir =>
    rw [if_neg hdot, if_neg hup]
    have hd := expectDir_eq_ok_iff.1 hdir
    split
    next hlong => simp [Nat.not_le.2 hlong]
    next hshort =>
      split
      next hsome => simp [hd, Nat.not_lt.1 hshort, hsome, eq_comm]
      next hnone => simp [hnone]

/-- A step leads to the same place in another tree, if that has a directory where it starts and, for
a proper name, something where it ends. -/
theorem step_of_step {t' : FileTree} {here next : Location} {name : String}
    (h : t.step here name = .ok next) (hdir : t'.node? here = some .directory)
    (hnext : name ≠ "." → name ≠ ".." → (t'.node? next).isSome) : t'.step here name = .ok next := by
  have hfollow := step_eq_follow h
  -- Only a proper name asks whether there is an entry; the others ask for the directory alone.
  by_cases hdot : name = "."
  · rw [hfollow, step, expectDir_eq_ok_iff.2 hdir]
    simp [hdot, follow]
  by_cases hup : name = ".."
  · rw [hfollow, step, expectDir_eq_ok_iff.2 hdir]
    simp [hup, follow]
  obtain ⟨-, hshort, rfl, -⟩ := (step_name_iff hdot hup).1 h
  exact (step_name_iff hdot hup).2 ⟨hdir, hshort, rfl, hnext hdot hup⟩

theorem walk_append (here : Location) (names more : List String) :
    t.walk here (names ++ more) =
      match t.walk here names with
      | .error e => .error e
      | .ok next => t.walk next more := by
  induction names generalizing here with
  | nil => rfl
  | cons name rest ih =>
      simp only [List.cons_append, walk]
      cases t.step here name with
      | error e => rfl
      | ok next => exact ih next

theorem walk_eq_follow {here loc : Location} {names : List String}
    (h : t.walk here names = .ok loc) : loc = follow here names := by
  induction names generalizing here with
  | nil => exact (Except.ok.inj h).symm
  | cons name rest ih =>
      rw [walk] at h
      split at h
      · exact absurd h (by simp)
      next next hstep =>
        have hnext := step_eq_follow hstep
        have hloc := ih h
        rw [hloc, hnext, ← follow_append]
        rfl

theorem locate_eq_target {loc : Location} (h : t.locate p = .ok loc) : loc = t.target p := by
  rw [locate] at h
  split at h
  · exact absurd h (by simp)
  split at h
  · exact absurd h (by simp)
  next found hwalk =>
    have hfound : found = t.target p := walk_eq_follow hwalk
    split at h
    · split at h
      · exact absurd h (by simp)
      · exact Except.ok.inj h ▸ hfound
    · exact Except.ok.inj h ▸ hfound

theorem isDir_iff :
    t.isDir p = true ↔ ∃ loc, t.locate p = .ok loc ∧ t.node? loc = some .directory := by
  rw [isDir]
  cases hloc : t.locate p with
  | error e => simp
  | ok loc => simp [isDirAt_iff]

/-! ## The last name of a path -/

/-- The last name of the path stands for an entry of a directory, whether there is one or not. -/
structure HasSlot (t : FileTree) (p : Path) (dir : Location) (name : String) : Prop where
  checked : p.check = .ok ()
  above : ∃ names, p.parts = names ++ [name] ∧ t.walk (t.start p) names = .ok dir
  isDir : t.node? dir = some .directory
  notDot : name ≠ "."
  notUp : name ≠ ".."

theorem slot_eq_some_iff {dir : Location} {name : String} :
    t.slot p = .ok (some (dir, name)) ↔ t.HasSlot p dir name := by
  rw [slot]
  constructor
  · intro h
    split at h
    · exact absurd h (by simp)
    next hcheck =>
      split at h
      · exact absurd h (by simp)
      next last hlast =>
        split at h
        · exact absurd h (by simp)
        next found hwalk =>
          split at h
          · exact absurd h (by simp)
          next hdir =>
            split at h
            · exact absurd h (by simp)
            next hname =>
              simp only [Except.ok.injEq, Option.some.injEq, Prod.mk.injEq] at h
              obtain ⟨rfl, rfl⟩ := h
              rw [not_or] at hname
              obtain ⟨names, hparts⟩ := List.getLast?_eq_some_iff.1 hlast
              rw [hparts, List.dropLast_concat] at hwalk
              exact ⟨hcheck, ⟨names, hparts, hwalk⟩, expectDir_eq_ok_iff.1 hdir, hname.1, hname.2⟩
  · rintro ⟨hcheck, ⟨names, hparts, hwalk⟩, hdir, hdot, hup⟩
    simp only [hcheck, hparts, List.getLast?_append, List.getLast?_singleton, Option.some_or,
      List.dropLast_concat, hwalk, expectDir_eq_ok_iff.2 hdir, hdot, hup, or_self, if_false]

namespace HasSlot

variable {dir : Location} {name : String}

theorem target (h : t.HasSlot p dir name) : t.target p = name :: dir := by
  obtain ⟨names, hparts, hwalk⟩ := h.above
  rw [FileTree.target, hparts, follow_append, ← walk_eq_follow hwalk,
    follow_name h.notDot h.notUp]

/-- A path whose last name is there, and fits, names what is there. -/
theorem locate {node : Node} (h : t.HasSlot p dir name)
    (hslash : p.endsWithSlash = true → node = .directory)
    (hshort : name.utf8ByteSize ≤ Path.nameLimit) (hnode : t.node? (name :: dir) = some node) :
    t.locate p = .ok (name :: dir) := by
  obtain ⟨names, hparts, hwalk⟩ := h.above
  have hstep : t.step dir name = .ok (name :: dir) :=
    (step_name_iff h.notDot h.notUp).2 ⟨h.isDir, hshort, rfl, by simp [hnode]⟩
  have hfull : t.walk (t.start p) p.parts = .ok (name :: dir) := by
    simp only [hparts, walk_append, hwalk, walk, hstep]
  simp only [FileTree.locate, h.checked, hfull]
  split
  next hs =>
    rw [hslash hs] at hnode
    rw [expectDir_eq_ok_iff.2 hnode]
  · rfl

/-- A path whose last name is not there names nothing. -/
theorem not_exists (h : t.HasSlot p dir name) (hnode : t.node? (name :: dir) = none) :
    t.pathExists p = false := by
  obtain ⟨names, hparts, hwalk⟩ := h.above
  have hstep : ∀ loc, t.step dir name ≠ .ok loc := by
    intro loc hloc
    have hsome := ((step_name_iff h.notDot h.notUp).1 hloc).2.2.2
    rw [hnode] at hsome
    exact absurd hsome (by simp)
  have hfull : ∀ loc, t.walk (t.start p) p.parts ≠ .ok loc := by
    intro loc hloc
    simp only [hparts, walk_append, hwalk, walk] at hloc
    split at hloc
    · exact absurd hloc (by simp)
    next found hfound => exact hstep found hfound
  rw [pathExists, FileTree.locate, h.checked]
  cases hw : t.walk (t.start p) p.parts with
  | error e => rfl
  | ok loc => exact absurd hw (hfull loc)

end HasSlot

end MessageArchive.FileTree
