import MessageArchive.FileTree.Operations
import MessageArchive.Proofs.FileTree.Target

set_option autoImplicit false

/-! # What operations keep

`Keeps` says that nothing is lost between two trees: directories stay, files stay with their
content, and only files at given locations may have grown. What could be followed or found in the
first tree can be followed and found in the second (`Keeps.walk`, `Keeps.locate`), so a path goes on
naming what it named.

An operation that makes a file does so at a `FileSlot`, and at a `FreeSlot` where nothing was. One that
removes a file does so where its path leads (`remove_eq_ok`). `AddsDirs` is what making directories
does to a tree.
-/

namespace MessageArchive.FileTree

variable {t t' : FileTree} {p : Path} {loc : Location}

/-! ## Nothing is lost -/

/-- Directories and files of the one tree are in the other, and only the files at the given
locations may have got longer. -/
structure Keeps (grown : List Location) (t t' : FileTree) : Prop where
  workingDir : t'.workingDir = t.workingDir
  directories : ∀ loc, t.node? loc = some .directory → t'.node? loc = some .directory
  files : ∀ loc content, t.node? loc = some (.file content) →
    ∃ more, t'.node? loc = some (.file (content ++ more)) ∧ (loc ∉ grown → more = [])

namespace Keeps

variable {grown grown' : List Location} {t'' : FileTree}

theorem refl (grown : List Location) (t : FileTree) : Keeps grown t t where
  workingDir := rfl
  directories := fun _ h => h
  files := fun _ _ h => ⟨[], by simpa using h, fun _ => rfl⟩

theorem trans (h : Keeps grown t t') (h' : Keeps grown t' t'') : Keeps grown t t'' where
  workingDir := h'.workingDir.trans h.workingDir
  directories := fun loc hd => h'.directories loc (h.directories loc hd)
  files := by
    intro loc content hf
    obtain ⟨more, hmore, hnone⟩ := h.files loc content hf
    obtain ⟨more', hmore', hnone'⟩ := h'.files loc _ hmore
    refine ⟨more ++ more', by simpa using hmore', fun hloc => ?_⟩
    rw [hnone hloc, hnone' hloc, List.append_nil]

theorem mono (h : Keeps grown t t') (hsub : ∀ loc ∈ grown, loc ∈ grown') : Keeps grown' t t' where
  workingDir := h.workingDir
  directories := h.directories
  files := by
    intro loc content hf
    obtain ⟨more, hmore, hnone⟩ := h.files loc content hf
    exact ⟨more, hmore, fun hloc => hnone fun hmem => hloc (hsub loc hmem)⟩

/-- Where only one location has changed, and nothing was there, nothing is lost. -/
theorem of_free (hdir : t'.workingDir = t.workingDir) (hfree : t.node? loc = none)
    (hsame : ∀ l, l ≠ loc → t'.node? l = t.node? l) : Keeps [] t t' := by
  have hold : ∀ l node, t.node? l = some node → t'.node? l = some node := by
    intro l node hl
    have hne : l ≠ loc := by
      rintro rfl
      rw [hfree] at hl
      exact absurd hl (by simp)
    rw [hsame l hne, hl]
  exact ⟨hdir, fun l hl => hold l _ hl, fun l content hl =>
    ⟨[], by simpa using hold l _ hl, fun _ => rfl⟩⟩

theorem isSome (h : Keeps grown t t') (hloc : (t.node? loc).isSome) : (t'.node? loc).isSome := by
  cases hnode : t.node? loc with
  | none => simp [hnode] at hloc
  | some node =>
      cases node with
      | directory => simp [h.directories loc hnode]
      | file content =>
          obtain ⟨more, hmore, -⟩ := h.files loc content hnode
          simp [hmore]

/-- What is free in the second tree was free in the first. -/
theorem free (h : Keeps grown t t') (hloc : t'.node? loc = none) : t.node? loc = none := by
  cases hnode : t.node? loc with
  | none => rfl
  | some node =>
      have hsome := h.isSome (hnode ▸ rfl : (t.node? loc).isSome)
      rw [hloc] at hsome
      exact absurd hsome (by simp)

/-! ### Paths lead where they led -/

theorem start (h : Keeps grown t t') (p : Path) : t'.start p = t.start p := by
  simp only [FileTree.start, h.workingDir]

theorem target (h : Keeps grown t t') (p : Path) : t'.target p = t.target p := by
  simp only [FileTree.target, h.start]

theorem step (h : Keeps grown t t') {here next : Location} {name : String}
    (hstep : t.step here name = .ok next) : t'.step here name = .ok next :=
  step_of_step hstep (h.directories here (step_isDir hstep)) fun hdot hup => by
    obtain ⟨-, -, rfl, hsome⟩ := (step_name_iff hdot hup).1 hstep
    exact h.isSome hsome

theorem walk (h : Keeps grown t t') {here loc : Location} {names : List String}
    (hwalk : t.walk here names = .ok loc) : t'.walk here names = .ok loc := by
  induction names generalizing here with
  | nil => exact hwalk
  | cons name rest ih =>
      rw [FileTree.walk] at hwalk ⊢
      split at hwalk
      · exact absurd hwalk (by simp)
      next next hstep =>
        rw [h.step hstep]
        exact ih hwalk

theorem hasSlot (h : Keeps grown t t') {dir : Location} {name : String}
    (hslot : t.HasSlot p dir name) : t'.HasSlot p dir name := by
  obtain ⟨hcheck, ⟨names, hparts, hwalk⟩, hdir, hdot, hup⟩ := hslot
  refine ⟨hcheck, ⟨names, hparts, ?_⟩, h.directories dir hdir, hdot, hup⟩
  rw [h.start]
  exact h.walk hwalk

theorem locate (h : Keeps grown t t') (hloc : t.locate p = .ok loc) : t'.locate p = .ok loc := by
  rw [FileTree.locate] at hloc ⊢
  split at hloc
  · exact absurd hloc (by simp)
  next hcheck =>
    split at hloc
    · exact absurd hloc (by simp)
    next found hwalk =>
      rw [h.start, h.walk hwalk]
      split at hloc
      next hslash =>
        split at hloc
        · exact absurd hloc (by simp)
        next hdir =>
          have hdir' := h.directories found (expectDir_eq_ok_iff.1 hdir)
          simp only [hslash, if_true, expectDir_eq_ok_iff.2 hdir']
          exact hloc
      next hslash =>
        simp only [hslash]
        exact hloc

theorem isDir (h : Keeps grown t t') (hp : t.isDir p = true) : t'.isDir p = true := by
  obtain ⟨loc, hloc, hdir⟩ := isDir_iff.1 hp
  exact isDir_iff.2 ⟨loc, h.locate hloc, h.directories loc hdir⟩

theorem not_exists (h : Keeps grown t t') (hp : t'.pathExists p = false) :
    t.pathExists p = false := by
  cases hloc : t.locate p with
  | error e => simp [pathExists, hloc, Except.isOk, Except.toBool]
  | ok loc => simp [pathExists, h.locate hloc, Except.isOk, Except.toBool] at hp

end Keeps

/-! ## Slots for files -/

/-- The path stands for a location in a directory, and a file can be there. -/
structure FileSlot (t : FileTree) (p : Path) (loc : Location) : Prop where
  slot : ∃ dir name, t.HasSlot p dir name ∧ name.utf8ByteSize ≤ Path.nameLimit ∧ loc = name :: dir
  noSlash : p.endsWithSlash = false

namespace FileSlot

theorem ne_root (h : t.FileSlot p loc) : loc ≠ [] := by
  obtain ⟨dir, name, -, -, rfl⟩ := h.slot
  exact List.cons_ne_nil name dir

theorem target (h : t.FileSlot p loc) : t.target p = loc := by
  obtain ⟨dir, name, hslot, -, rfl⟩ := h.slot
  exact hslot.target

theorem of_keeps {grown : List Location} (hk : Keeps grown t t') (h : t.FileSlot p loc) :
    t'.FileSlot p loc := by
  obtain ⟨dir, name, hslot, hshort, hloc⟩ := h.slot
  exact ⟨⟨dir, name, hk.hasSlot hslot, hshort, hloc⟩, h.noSlash⟩

/-- Where there is something at the location, the path names it. -/
theorem locate {node : Node} (h : t.FileSlot p loc) (hnode : t.node? loc = some node) :
    t.locate p = .ok loc := by
  obtain ⟨dir, name, hslot, hshort, rfl⟩ := h.slot
  exact hslot.locate (by simp [h.noSlash]) hshort hnode

/-- Where there is nothing at the location, the path names nothing. -/
theorem not_exists (h : t.FileSlot p loc) (hfree : t.node? loc = none) :
    t.pathExists p = false := by
  obtain ⟨dir, name, hslot, -, rfl⟩ := h.slot
  exact hslot.not_exists hfree

/-- Where there is a file at the location, the path serves to remove it. -/
theorem remove {content : Bytes} (h : t.FileSlot p loc)
    (hfile : t.node? loc = some (.file content)) : t.remove p = .ok (t.erase loc) := by
  obtain ⟨dir, name, hslot, hshort, rfl⟩ := h.slot
  rw [FileTree.remove, slot_eq_some_iff.2 hslot]
  simp only [Nat.not_lt.2 hshort, if_false, hfile, h.noSlash, Bool.false_eq_true]

/-- Where there is nothing at the location, there is nothing to remove. -/
theorem remove_free (h : t.FileSlot p loc) (hfree : t.node? loc = none) :
    t.remove p = .error .noSuchEntry := by
  obtain ⟨dir, name, hslot, hshort, rfl⟩ := h.slot
  rw [FileTree.remove, slot_eq_some_iff.2 hslot]
  simp only [Nat.not_lt.2 hshort, if_false, hfree]

end FileSlot

/-- The path stands for a location at which a file can be and nothing is. -/
structure FreeSlot (t : FileTree) (p : Path) (loc : Location) : Prop extends
    FileSlot t p loc where
  free : t.node? loc = none

theorem keeps_put (hfree : t.node? loc = none) (node : Node) : Keeps [] t (t.put loc node) :=
  Keeps.of_free rfl hfree fun _ hne => node?_put_ne t hne node

theorem contentOf_of_locate {content : Bytes} (h : t.locate p = .ok loc)
    (hfile : t.node? loc = some (.file content)) : t.contentOf p = .ok content := by
  simp only [contentOf, nodeOf, h, hfile]

/-- A content that is read is that of a file the path leads to. -/
theorem locate_of_contentOf {content : Bytes} (h : t.contentOf p = .ok content) :
    ∃ loc, t.locate p = .ok loc ∧ t.node? loc = some (.file content) := by
  rw [contentOf, nodeOf] at h
  cases hloc : t.locate p with
  | error e => simp [hloc] at h
  | ok loc =>
      refine ⟨loc, rfl, ?_⟩
      cases hnode : t.node? loc with
      | none => simp [hloc, hnode] at h
      | some node =>
          cases node with
          | directory => simp [hloc, hnode] at h
          | file found =>
              simp only [hloc, hnode] at h
              rw [Except.ok.inj h]

/-- Where no file has grown, what could be read is read again. -/
theorem Keeps.contentOf (h : Keeps [] t t') {content : Bytes}
    (hread : t.contentOf p = .ok content) : t'.contentOf p = .ok content := by
  obtain ⟨loc, hloc, hfile⟩ := locate_of_contentOf hread
  obtain ⟨more, hmore, hnone⟩ := h.files loc content hfile
  rw [hnone List.not_mem_nil, List.append_nil] at hmore
  exact contentOf_of_locate (h.locate hloc) hmore

/-! ## Making files -/

theorem createNew_eq_ok_iff {made : FileTree} :
    t.createNew p = .ok (made, loc) ↔ t.FreeSlot p loc ∧ made = t.put loc (.file []) := by
  rw [createNew]
  constructor
  · intro h
    split at h
    · exact absurd h (by simp)
    · exact absurd h (by simp)
    next dir name hslot =>
      split at h
      · exact absurd h (by simp)
      next hslash =>
        split at h
        · exact absurd h (by simp)
        next hshort =>
          split at h
          · exact absurd h (by simp)
          next hfree =>
            simp only [Except.ok.injEq, Prod.mk.injEq] at h
            obtain ⟨rfl, rfl⟩ := h
            rw [Bool.not_eq_true] at hslash
            refine ⟨⟨⟨⟨dir, name, slot_eq_some_iff.1 hslot, ?_, rfl⟩, hslash⟩, ?_⟩, rfl⟩
            · exact Nat.not_lt.1 hshort
            · exact Option.not_isSome_iff_eq_none.1 hfree
  · rintro ⟨⟨⟨⟨dir, name, hslot, hshort, rfl⟩, hslash⟩, hfree⟩, rfl⟩
    simp only [slot_eq_some_iff.2 hslot, hslash, Bool.false_eq_true, if_false,
      Nat.not_lt.2 hshort, hfree, Option.isSome_none]

theorem fileSlot_eq_ok (h : t.fileSlot p = .ok loc) : t.FileSlot p loc := by
  rw [fileSlot] at h
  split at h
  · exact absurd h (by simp)
  · exact absurd h (by simp)
  next dir name hslot =>
    split at h
    · exact absurd h (by simp)
    next hslash =>
      split at h
      · exact absurd h (by simp)
      next hshort =>
        split at h
        · exact absurd h (by simp)
        · obtain rfl := Except.ok.inj h
          rw [Bool.not_eq_true] at hslash
          exact ⟨⟨dir, name, slot_eq_some_iff.1 hslot, Nat.not_lt.1 hshort, rfl⟩, hslash⟩

/-- A path that names nothing is opened for writing where nothing is. -/
theorem fileSlot_free (h : t.fileSlot p = .ok loc) (hp : t.pathExists p = false) :
    t.node? loc = none := by
  have hslot := fileSlot_eq_ok h
  cases hnode : t.node? loc with
  | none => rfl
  | some node =>
      have hloc := hslot.locate hnode
      simp [pathExists, hloc, Except.isOk, Except.toBool] at hp

/-- Making a file over a path that names nothing loses nothing. -/
theorem overwrite_keeps {content : Bytes} {made : FileTree} (hp : t.pathExists p = false)
    (h : t.overwrite p content = .ok made) : Keeps [] t made := by
  rw [overwrite] at h
  split at h
  · exact absurd h (by simp)
  next loc hslot =>
    obtain rfl := Except.ok.inj h
    exact keeps_put (fileSlot_free hslot hp) _

theorem touch_keeps {made : FileTree} (h : t.touch p = .ok made) : Keeps [] t made := by
  rw [touch] at h
  split at h
  · exact absurd h (by simp)
  next loc hslot =>
    split at h
    · obtain rfl := Except.ok.inj h
      exact Keeps.refl [] t
    next hfree =>
      obtain rfl := Except.ok.inj h
      exact keeps_put hfree _

theorem appendAt_of_file {content : Bytes} (h : t.node? loc = some (.file content))
    (data : Bytes) : t.appendAt loc data = t.put loc (.file (content ++ data)) := by
  simp only [appendAt, h]

/-- What is appended is behind the content that was there. -/
theorem appendAt_keeps (t : FileTree) (loc : Location) (data : Bytes) :
    Keeps [loc] t (t.appendAt loc data) := by
  cases hnode : t.node? loc with
  | none =>
      rw [appendAt, hnode]
      exact Keeps.refl _ t
  | some node =>
      cases node with
      | directory =>
          rw [appendAt, hnode]
          exact Keeps.refl _ t
      | file content =>
          rw [appendAt_of_file hnode]
          -- The root is a directory, so the file is not at the root.
          have hroot : loc ≠ [] := by
            rintro rfl
            simp at hnode
          refine ⟨rfl, fun l hl => ?_, fun l old hl => ?_⟩
          · have hne : l ≠ loc := by
              rintro rfl
              rw [hnode] at hl
              exact absurd hl (by simp)
            rw [node?_put_ne t hne, hl]
          · by_cases hne : l = loc
            · subst hne
              rw [hnode] at hl
              obtain rfl : content = old := by simpa using hl
              exact ⟨data, node?_put_self t hroot _, fun hl => absurd (by simp) hl⟩
            · exact ⟨[], by rw [node?_put_ne t hne, hl, List.append_nil], fun _ => rfl⟩

theorem appendAt_free (h : t.node? loc = none) (data : Bytes) : t.appendAt loc data = t := by
  simp only [appendAt, h]

/-! ## Removing files -/

/-- What is removed is the file that the path leads to. -/
theorem remove_eq_ok {removed : FileTree} (h : t.remove p = .ok removed) :
    removed = t.erase (t.target p) := by
  rw [remove] at h
  split at h
  · exact absurd h (by simp)
  · exact absurd h (by simp)
  next dir name hslot =>
    split at h
    · exact absurd h (by simp)
    · split at h
      · exact absurd h (by simp)
      · exact absurd h (by simp)
      · split at h
        · exact absurd h (by simp)
        · rw [(slot_eq_some_iff.1 hslot).target]
          exact (Except.ok.inj h).symm

/-! ## Making directories -/

/-- Nothing but directories has been added, and those at locations with a given property. -/
structure AddsDirs (place : Location → Prop) (t t' : FileTree) : Prop where
  workingDir : t'.workingDir = t.workingDir
  node : ∀ l, t'.node? l = t.node? l ∨
    t.node? l = none ∧ t'.node? l = some .directory ∧ place l

namespace AddsDirs

variable {place : Location → Prop}

theorem refl (place : Location → Prop) (t : FileTree) : AddsDirs place t t := ⟨rfl, fun _ => Or.inl rfl⟩

theorem trans {t'' : FileTree} (h : AddsDirs place t t') (h' : AddsDirs place t' t'') :
    AddsDirs place t t'' := by
  refine ⟨h'.workingDir.trans h.workingDir, fun l => ?_⟩
  rcases h'.node l with hsame | ⟨hnone, hdir, hl⟩
  · rw [hsame]
    exact h.node l
  · rcases h.node l with hsame | ⟨-, hdir', -⟩
    · exact Or.inr ⟨hsame ▸ hnone, hdir, hl⟩
    · rw [hnone] at hdir'
      exact absurd hdir' (by simp)

theorem mono {place' : Location → Prop} (h : AddsDirs place t t') (hsub : ∀ l, place l → place' l) :
    AddsDirs place' t t' := by
  refine ⟨h.workingDir, fun l => ?_⟩
  rcases h.node l with hsame | ⟨hnone, hdir, hl⟩
  · exact Or.inl hsame
  · exact Or.inr ⟨hnone, hdir, hsub l hl⟩

theorem keeps (h : AddsDirs place t t') : Keeps [] t t' := by
  have hold : ∀ l node, t.node? l = some node → t'.node? l = some node := by
    intro l node hl
    rcases h.node l with hsame | ⟨hnone, -, -⟩
    · rw [hsame, hl]
    · rw [hnone] at hl
      exact absurd hl (by simp)
  exact ⟨h.workingDir, fun l hl => hold l _ hl, fun l content hl =>
    ⟨[], by simpa using hold l _ hl, fun _ => rfl⟩⟩

end AddsDirs

theorem makeDir_adds {made : FileTree} (h : t.makeDir p = .ok made) :
    AddsDirs (· = t.target p) t made := by
  rw [makeDir] at h
  split at h
  · exact absurd h (by simp)
  · exact absurd h (by simp)
  next dir name hslot =>
    split at h
    · exact absurd h (by simp)
    · split at h
      · exact absurd h (by simp)
      next hfree =>
        obtain rfl := Except.ok.inj h
        rw [(slot_eq_some_iff.1 hslot).target]
        refine ⟨rfl, fun l => ?_⟩
        by_cases hl : l = name :: dir
        · subst hl
          exact Or.inr ⟨Option.not_isSome_iff_eq_none.1 hfree, node?_put_self t (by simp) _, rfl⟩
        · exact Or.inl (node?_put_ne t hl _)

theorem makeDir_isDir {made : FileTree} (h : t.makeDir p = .ok made) : made.isDir p = true := by
  have hkeeps := (makeDir_adds h).keeps
  rw [makeDir] at h
  split at h
  · exact absurd h (by simp)
  · exact absurd h (by simp)
  next dir name hslot =>
    split at h
    · exact absurd h (by simp)
    next hshort =>
      split at h
      · exact absurd h (by simp)
      · obtain rfl := Except.ok.inj h
        have hdir := node?_put_self t (List.cons_ne_nil name dir) .directory
        have hloc := (hkeeps.hasSlot (slot_eq_some_iff.1 hslot)).locate (fun _ => rfl)
          (Nat.not_lt.1 hshort) hdir
        exact isDir_iff.2 ⟨name :: dir, hloc, hdir⟩

theorem makeDirsOf_adds (t : FileTree) (ps : List Path) :
    AddsDirs (fun l => ∃ p ∈ ps, l = t.target p) t (t.makeDirsOf ps).2 := by
  -- The tree varies: the first path is tried again in the tree that the others have left.
  induction ps generalizing t with
  | nil => exact .refl _ t
  | cons p above ih =>
      have hfirst : ∀ l, l = t.target p → ∃ q ∈ p :: above, l = t.target q :=
        fun l hl => ⟨p, by simp, hl⟩
      have habove : AddsDirs (fun l => ∃ q ∈ p :: above, l = t.target q) t
          (t.makeDirsOf above).2 := by
        refine (ih t).mono ?_
        rintro l ⟨q, hq, rfl⟩
        exact ⟨q, List.mem_cons_of_mem _ hq, rfl⟩
      rw [makeDirsOf]
      split
      · exact .refl _ t
      split
      next made hmade => exact (makeDir_adds hmade).mono hfirst
      next =>
        split
        next e tried htried => exact htried ▸ habove
        next tried htried =>
          have htried' : AddsDirs (fun l => ∃ q ∈ p :: above, l = t.target q) t tried := by
            rw [htried] at habove
            exact habove
          split
          next made hmade =>
            have hmade' := makeDir_adds hmade
            -- The path leads to the same place in both trees.
            rw [htried'.keeps.target] at hmade'
            exact htried'.trans (hmade'.mono hfirst)
          next e =>
            split
            · exact htried'
            · exact htried'
      next e _ =>
        split
        · exact .refl _ t
        · exact .refl _ t

/-- A directory that was asked for by a name is there in the end. -/
theorem makeDirsOf_isDir {above : List Path} {made : FileTree} (hne : p.text.isEmpty = false)
    (h : t.makeDirsOf (p :: above) = (.ok (), made)) : made.isDir p = true := by
  rw [makeDirsOf, hne] at h
  simp only [Bool.false_eq_true, if_false] at h
  split at h
  next made' hmade =>
    obtain rfl : made' = made := by simpa using h
    exact makeDir_isDir hmade
  next =>
    split at h
    · exact absurd h (by simp)
    next tried _ =>
      split at h
      next made' hmade =>
        obtain rfl : made' = made := by simpa using h
        exact makeDir_isDir hmade
      · split at h
        next hdir =>
          obtain rfl : tried = made := by simpa using h
          exact hdir
        · exact absurd h (by simp)
  · split at h
    next hdir =>
      obtain rfl : t = made := by simpa using h
      exact hdir
    · exact absurd h (by simp)

theorem makeDirs_adds (t : FileTree) (p : Path) :
    AddsDirs (fun l => ∃ q ∈ p.ancestors, l = t.target q) t (t.makeDirs p).2 :=
  makeDirsOf_adds t p.ancestors

theorem makeDirs_isDir {made : FileTree} (hne : p.text.isEmpty = false)
    (h : t.makeDirs p = (.ok (), made)) : made.isDir p = true :=
  makeDirsOf_isDir hne h

end MessageArchive.FileTree
