import MessageArchive.Proofs.FileTree.Creating

set_option autoImplicit false

/-! # Trees with the same directories

Where the directories stay, a path keeps its slot, whatever becomes of the files: the names before
the last one are followed through directories only (`SameDirs.walk`). So files can come and go
without changing where a file for a path has its place.
-/

namespace MessageArchive.FileTree

variable {t t' t'' : FileTree} {p : Path} {loc : Location}

/-- The two trees have their directories at the same locations. -/
structure SameDirs (t t' : FileTree) : Prop where
  workingDir : t'.workingDir = t.workingDir
  directories : ∀ loc, t'.node? loc = some .directory ↔ t.node? loc = some .directory

theorem sameDirs_put_file (hroot : loc ≠ []) (hnode : t.node? loc ≠ some .directory)
    (content : Bytes) : SameDirs t (t.put loc (.file content)) := by
  refine ⟨rfl, fun l => ?_⟩
  by_cases hl : l = loc
  · subst hl
    rw [node?_put_self t hroot]
    simp [hnode]
  · rw [node?_put_ne t hl]

theorem sameDirs_erase (hroot : loc ≠ []) (hnode : t.node? loc ≠ some .directory) :
    SameDirs t (t.erase loc) := by
  refine ⟨rfl, fun l => ?_⟩
  by_cases hl : l = loc
  · subst hl
    rw [node?_erase_self t hroot]
    simp [hnode]
  · rw [node?_erase_ne t hl]

/-- A path that leads to a directory starts at one. -/
theorem isDir_of_walk {here dir : Location} {names : List String}
    (hwalk : t.walk here names = .ok dir) (hdir : t.node? dir = some .directory) :
    t.node? here = some .directory := by
  cases names with
  | nil =>
      obtain rfl := Except.ok.inj hwalk
      exact hdir
  | cons name rest =>
      rw [walk] at hwalk
      split at hwalk
      · exact absurd hwalk (by simp)
      next next hstep => exact step_isDir hstep

namespace SameDirs

theorem refl (t : FileTree) : SameDirs t t := ⟨rfl, fun _ => Iff.rfl⟩

theorem symm (h : SameDirs t t') : SameDirs t' t :=
  ⟨h.workingDir.symm, fun loc => (h.directories loc).symm⟩

theorem trans (h : SameDirs t t') (h' : SameDirs t' t'') : SameDirs t t'' :=
  ⟨h'.workingDir.trans h.workingDir, fun loc => (h'.directories loc).trans (h.directories loc)⟩

theorem start (h : SameDirs t t') (p : Path) : t'.start p = t.start p := by
  simp only [FileTree.start, h.workingDir]

theorem target (h : SameDirs t t') (p : Path) : t'.target p = t.target p := by
  simp only [FileTree.target, h.start]

theorem anchored (h : SameDirs t t') (hanchored : t.Anchored) : t'.Anchored := by
  intro loc hloc
  rw [h.workingDir] at hloc
  exact (h.directories loc).2 (hanchored loc hloc)

theorem step (h : SameDirs t t') {here next : Location} {name : String}
    (hstep : t.step here name = .ok next) (hnext : t.node? next = some .directory) :
    t'.step here name = .ok next :=
  step_of_step hstep ((h.directories here).2 (step_isDir hstep)) fun _ _ => by
    rw [(h.directories next).2 hnext]
    rfl

theorem walk (h : SameDirs t t') {here dir : Location} {names : List String}
    (hwalk : t.walk here names = .ok dir) (hdir : t.node? dir = some .directory) :
    t'.walk here names = .ok dir := by
  induction names generalizing here with
  | nil => exact hwalk
  | cons name rest ih =>
      rw [FileTree.walk] at hwalk ⊢
      split at hwalk
      · exact absurd hwalk (by simp)
      next next hstep =>
        -- The rest of the names starts at a directory, so that is there in both trees.
        rw [h.step hstep (isDir_of_walk hwalk hdir)]
        exact ih hwalk

theorem hasSlot (h : SameDirs t t') {dir : Location} {name : String}
    (hslot : t.HasSlot p dir name) : t'.HasSlot p dir name := by
  obtain ⟨hcheck, ⟨names, hparts, hwalk⟩, hdir, hdot, hup⟩ := hslot
  refine ⟨hcheck, ⟨names, hparts, ?_⟩, (h.directories dir).2 hdir, hdot, hup⟩
  rw [h.start]
  exact h.walk hwalk hdir

theorem fileSlot (h : SameDirs t t') (hslot : t.FileSlot p loc) : t'.FileSlot p loc := by
  obtain ⟨dir, name, hhas, hshort, hloc⟩ := hslot.slot
  exact ⟨⟨dir, name, h.hasSlot hhas, hshort, hloc⟩, hslot.noSlash⟩

end SameDirs

end MessageArchive.FileTree
