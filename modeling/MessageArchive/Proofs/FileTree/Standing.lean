import MessageArchive.Proofs.FileTree.Creating

set_option autoImplicit false

/-! # Directories that are there

A path that names something goes through directories that are there, so the path before its last name
names one of them (`isDir_of_exists_join`). Making a directory that is there changes nothing at all
(`makeDirs_of_isDir`).

In a tree in which everything stands in a directory, a path without `..` that leads to something can
be followed as soon as it can be followed in a later tree (`Rooted.walk`). So whatever directories
are made for such a path, there was nothing in its place if it named nothing (`Rooted.vacant`).
-/

namespace MessageArchive.FileTree

open MessageArchive.Path

variable {t t' : FileTree} {p base : Path} {name : String}

/-! ## On the way to a path -/

theorem check_of_locate {loc : Location} (h : t.locate p = .ok loc) : p.check = .ok () := by
  rw [locate] at h
  split at h
  · cases h
  · assumption

/-- What can be handed to the operating system has a text without U+0000 that is not too long. -/
theorem check_eq_ok_iff : p.check = .ok () ↔
    '\x00' ∉ p.text.toList ∧ p.text.toList ≠ [] ∧ p.text.utf8ByteSize < lengthLimit := by
  constructor
  · intro h
    rw [check] at h
    split at h
    · cases h
    next hnul =>
      split at h
      · cases h
      next hempty =>
        split at h
        · cases h
        next hshort =>
          refine ⟨hnul, fun hnil => hempty ?_, Nat.not_le.1 hshort⟩
          rw [String.isEmpty_iff]
          exact String.toList_eq_nil_iff.1 hnil
  · rintro ⟨hnul, hne, hshort⟩
    exact check_eq_ok hnul hne hshort

/-- What a path is joined to can be handed to the operating system with it. -/
theorem check_of_check_join (hrel : (Path.mk name).isAbsolute = false)
    (hne : base.text.toList ≠ []) (h : (base.join name).check = .ok ()) : base.check = .ok () := by
  obtain ⟨slash, htext, -, -, -⟩ := join_text hrel base
  obtain ⟨hnul, -, hshort⟩ := check_eq_ok_iff.1 h
  refine check_eq_ok_iff.2 ⟨fun hmem => hnul ?_, hne, ?_⟩
  · rw [htext]
    simp [hmem]
  · have hstring : (base.join name).text = base.text ++ (String.ofList slash ++ name) := by
      apply String.toList_injective
      simp [htext]
    rw [hstring, String.utf8ByteSize_append] at hshort
    omega

/-- A name is followed from a directory. -/
theorem isDir_of_walk_cons {dir loc : Location} {rest : List String}
    (h : t.walk dir (name :: rest) = .ok loc) : t.node? dir = some .directory := by
  rw [walk] at h
  split at h
  · cases h
  next next hstep => exact step_isDir hstep

/-- A path that names something is below a directory. -/
theorem isDir_of_exists_join (hrel : (Path.mk name).isAbsolute = false)
    (hname : (Path.mk name).parts ≠ []) (hne : base.text.toList ≠ [])
    (h : t.pathExists (base.join name) = true) : t.isDir base = true := by
  obtain ⟨loc, hloc⟩ := pathExists_iff.1 h
  have hwalk := walk_of_locate hloc
  have hstart : t.start (base.join name) = t.start base := by
    rw [start, start, isAbsolute_join hrel]
  obtain ⟨first, rest, hfirst⟩ := List.exists_cons_of_ne_nil hname
  rw [hstart, parts_join hrel, walk_append, hfirst] at hwalk
  split at hwalk
  · cases hwalk
  next dir habove =>
    have hdir := isDir_of_walk_cons hwalk
    have hlocate : t.locate base = .ok dir := by
      have hcheck := check_of_check_join hrel hne (check_of_locate hloc)
      simp only [locate, hcheck, habove, expectDir_eq_ok_iff.2 hdir, ite_self]
    exact isDir_iff.2 ⟨dir, hlocate, hdir⟩

/-! ## Making what is there -/

theorem pathExists_of_isDir (h : t.isDir p = true) : t.pathExists p = true := by
  obtain ⟨loc, hloc, -⟩ := isDir_iff.1 h
  exact pathExists_iff.2 ⟨loc, hloc⟩

/-- A path that names something can be followed up to its last name. -/
theorem slot_of_exists (h : t.pathExists p = true) : ∃ place, t.slot p = .ok place := by
  obtain ⟨loc, hloc⟩ := pathExists_iff.1 h
  have hwalk := walk_of_locate hloc
  rw [slot, check_of_locate hloc]
  dsimp only
  split
  next => exact ⟨none, rfl⟩
  next last hlast =>
    obtain ⟨names, hparts⟩ := List.getLast?_eq_some_iff.1 hlast
    rw [hparts, walk_append] at hwalk
    split at hwalk
    · cases hwalk
    next dir habove =>
      have hdir := isDir_of_walk_cons hwalk
      rw [hparts, List.dropLast_concat, habove]
      dsimp only
      rw [expectDir_eq_ok_iff.2 hdir]
      dsimp only
      split
      · exact ⟨none, rfl⟩
      · exact ⟨some (dir, last), rfl⟩

/-- To make a directory where there is something is refused, and not for want of a directory above
it. -/
theorem makeDir_of_exists (h : t.pathExists p = true) :
    ∃ cause, t.makeDir p = .error cause ∧ cause ≠ .noSuchEntry := by
  obtain ⟨place, hplace⟩ := slot_of_exists h
  rw [makeDir, hplace]
  cases place with
  | none => exact ⟨.alreadyExists, rfl, by simp⟩
  | some found =>
      obtain ⟨dir, last⟩ := found
      dsimp only
      split
      · exact ⟨.nameTooLong, rfl, by simp⟩
      · split
        · exact ⟨.alreadyExists, rfl, by simp⟩
        next hfree =>
          rw [Option.not_isSome_iff_eq_none] at hfree
          have hnone := (slot_eq_some_iff.1 hplace).not_exists hfree
          rw [hnone] at h
          cases h

/-- **A directory that is there is not made again.** -/
theorem makeDirs_of_isDir (h : t.isDir p = true) : t.makeDirs p = (.ok (), t) := by
  obtain ⟨cause, hrefused, hcause⟩ := makeDir_of_exists (pathExists_of_isDir h)
  rw [makeDirs, ancestors, makeDirsOf]
  split
  · rfl
  · rw [hrefused]
    split
    next hmade => cases hmade
    next hmissing => exact absurd (Except.error.inj hmissing) hcause
    next => rfl

/-! ## Trees in which everything stands in a directory -/

/-- Whatever is in the tree stands in a directory. -/
def Rooted (t : FileTree) : Prop :=
  ∀ name loc, (t.node? (name :: loc)).isSome → t.node? loc = some .directory

/-- All that is above a location at which there is something is a directory. -/
theorem Rooted.above (h : t.Rooted) {loc l : Location} (hloc : (t.node? loc).isSome)
    (hl : l <:+ loc) (hne : l ≠ loc) : t.node? l = some .directory := by
  induction loc with
  | nil => exact absurd (List.suffix_nil.1 hl) hne
  | cons name loc ih =>
      have hdir := h name loc hloc
      have hl' : l <:+ loc := (List.suffix_cons_iff.1 hl).resolve_left hne
      by_cases heq : l = loc
      · rw [heq]
        exact hdir
      · exact ih (hdir ▸ rfl) hl' heq

/-- A name other than `..` leads down, or nowhere else. -/
theorem suffix_of_step {here next : Location} (hup : name ≠ "..")
    (h : t.step here name = .ok next) : here <:+ next := by
  rw [step_eq_follow h, follow]
  split
  · exact List.suffix_refl here
  · exact List.suffix_cons name here

theorem suffix_of_walk {here loc : Location} {names : List String} (hup : ".." ∉ names)
    (h : t.walk here names = .ok loc) : here <:+ loc := by
  induction names generalizing here with
  | nil =>
      obtain rfl := Except.ok.inj h
      exact List.suffix_refl here
  | cons name rest ih =>
      rw [List.mem_cons, not_or] at hup
      rw [walk] at h
      split at h
      · cases h
      next next hstep => exact (suffix_of_step (Ne.symm hup.1) hstep).trans (ih hup.2 h)

/-- A file would have stayed a file. -/
theorem Keeps.directory_of_isSome (h : Keeps [] t t') {loc : Location}
    (hsome : (t.node? loc).isSome) (hdir : t'.node? loc = some .directory) :
    t.node? loc = some .directory := by
  cases hnode : t.node? loc with
  | none => simp [hnode] at hsome
  | some node =>
      cases node with
      | directory => rfl
      | file content =>
          obtain ⟨more, hfile, -⟩ := h.files loc content hnode
          rw [hdir] at hfile
          cases hfile

/-- What a later tree leads to without `..`, this tree leads to if it has something there. -/
theorem Rooted.walk (h : t.Rooted) (hkeeps : Keeps [] t t') {here loc : Location}
    {names : List String} (hup : ".." ∉ names) (hloc : (t.node? loc).isSome)
    (hwalk : t'.walk here names = .ok loc) : t.walk here names = .ok loc := by
  induction names generalizing here with
  | nil => exact hwalk
  | cons name rest ih =>
      rw [List.mem_cons, not_or] at hup
      rw [FileTree.walk] at hwalk
      split at hwalk
      · cases hwalk
      next next hstep =>
        have hdown : next <:+ loc := suffix_of_walk hup.2 hwalk
        have hsuffix : here <:+ loc := (suffix_of_step (Ne.symm hup.1) hstep).trans hdown
        have hthere : ∀ l, l <:+ loc → (t.node? l).isSome := by
          intro l hl
          by_cases heq : l = loc
          · rw [heq]
            exact hloc
          · rw [h.above hloc hl heq]
            rfl
        have hhere := hkeeps.directory_of_isSome (hthere here hsuffix) (step_isDir hstep)
        have hstep' : t.step here name = .ok next :=
          step_of_step hstep hhere fun _ _ => hthere next hdown
        rw [FileTree.walk, hstep']
        exact ih hup.2 hwalk

/-- A path that named nothing before something was made for it had nothing in its place. -/
theorem Rooted.vacant (h : t.Rooted) (hkeeps : Keeps [] t t') (hup : ".." ∉ p.parts)
    (hslash : p.endsWithSlash = false) (hbefore : t.pathExists p = false)
    (hafter : t'.pathExists p = true) : t.node? (t.target p) = none := by
  obtain ⟨loc, hloc⟩ := pathExists_iff.1 hafter
  have htarget : loc = t.target p := by rw [← hkeeps.target, locate_eq_target hloc]
  rw [← Option.not_isSome_iff_eq_none, ← htarget]
  intro hsome
  have hwalk := walk_of_locate hloc
  rw [hkeeps.start] at hwalk
  have hlocate : t.locate p = .ok loc := by
    have hcheck := check_of_locate hloc
    have hbelow := h.walk hkeeps hup hsome hwalk
    simp only [locate, hcheck, hbelow, hslash, Bool.false_eq_true, if_false]
  rw [pathExists_iff.2 ⟨loc, hlocate⟩] at hbefore
  cases hbefore

end MessageArchive.FileTree
