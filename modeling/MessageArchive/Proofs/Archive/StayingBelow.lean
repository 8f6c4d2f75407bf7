import MessageArchive.Proofs.Archive.Candidates
import MessageArchive.Proofs.Archive.Preservation

set_option autoImplicit false

/-! # Archive files stay below the archive directory

A name is accepted when it does not begin with a slash and `..` does not stand between its slashes.
All candidates for such a name go on from the base with names that never lead up
(`candidate_goesOnFrom`), so what they name lies below what the base names. Any other name is
refused before the file tree is looked at (`refuses_of_checkName`).
-/

namespace MessageArchive

namespace FileTree

/-- Names that do not lead up lead down. -/
theorem suffix_follow {names : List String} (h : ".." ∉ names) (here : Location) :
    here <:+ follow here names := by
  induction names generalizing here with
  | nil => exact List.suffix_refl here
  | cons name rest ih =>
      rw [List.mem_cons, not_or] at h
      rw [follow, if_neg (Ne.symm h.1)]
      split
      · exact ih h.2 here
      · exact (List.suffix_cons name here).trans (ih h.2 (name :: here))

end FileTree

namespace Archive

open MessageArchive.Path

/-- The path is the base with something behind it, and what is behind it leads nowhere but down:
as written, in its parts, in its components, and in every file tree. -/
structure GoesOnFrom (base p : Path) : Prop where
  written : base.text.toList <+: p.text.toList
  absolute : p.isAbsolute = base.isAbsolute
  parts : ∃ names, p.parts = base.parts ++ names ∧ ∀ n ∈ names, IsName n ∧ n ≠ ".."
  components : ∃ names, p.components = base.components ++ names ∧ ∀ n ∈ names, IsName n ∧ n ≠ ".."
  below : ∀ t : FileTree, t.target base <:+ t.target p

/-- Whatever a file is looked for or made for, the name is refused, and the tree stays as it is. -/
structure Refuses (name : String) (e : ArchiveError) (t : FileTree) (base : Path) (limit : Nat) :
    Prop where
  uniquePath : (Operation.uniquePath base name limit).run t = ⟨.path (.error e), t, none⟩
  claim : (Operation.claim base name limit).run t = ⟨.path (.error e), t, none⟩
  store : ∀ payload,
    (Operation.store base name limit payload).run t = ⟨.receipt (.error e), t, none⟩
  writer : ∀ pieces ending,
    (Operation.writer base name limit pieces ending).run t = ⟨.receipt (.error e), t, none⟩

/-! ## Names that are accepted -/

variable {name : String}

/-- The check in terms of the text of the name. -/
theorem checkName_iff_text :
    checkName name = .ok () ↔
      ¬ ['/'] <+: name.toList ∧ ['.', '.'] ∉ name.toList.splitOn '/' := by
  rw [checkName_eq_ok_iff]
  refine and_congr ?_ (not_congr ?_)
  · rw [isAbsolute]
    cases name.toList with
    | nil => simp
    | cons c rest =>
        by_cases hc : c = '/'
        · simp [hc]
        · simp [hc, Ne.symm hc]
  · simp only [parts, List.mem_map, List.mem_filter]
    constructor
    · rintro ⟨part, ⟨hmem, -⟩, heq⟩
      obtain rfl : part = ['.', '.'] := by
        rw [← String.toList_ofList (l := part), heq]
        rfl
      exact hmem
    · intro hmem
      exact ⟨['.', '.'], ⟨hmem, rfl⟩, rfl⟩

/-- The check in terms of the components of the name, which leave out what stays in place. -/
theorem checkName_iff_components :
    checkName name = .ok () ↔
      (Path.mk name).isAbsolute = false ∧ ".." ∉ (Path.mk name).components := by
  rw [checkName_eq_ok_iff]
  refine and_congr_right fun _ => not_congr ⟨fun h => ?_, mem_parts_of_mem_components⟩
  exact mem_components_of_mem_parts h (by decide)

theorem candidate_goesOnFrom (h : checkName name = .ok ()) (base : Path) (index : Nat) :
    GoesOnFrom base (candidate base name index) := by
  obtain ⟨hrel, hup⟩ := checkName_eq_ok_iff.1 (checkName_numbered h index)
  have hparts := parts_candidate h base index
  have habs : (candidate base name index).isAbsolute = base.isAbsolute := isAbsolute_join hrel base
  have hnames : ∀ n ∈ (Path.mk (numbered name index)).parts, IsName n ∧ n ≠ ".." := fun n hn =>
    ⟨isName_of_mem_parts hn, fun heq => hup (heq ▸ hn)⟩
  refine ⟨?_, habs, ⟨_, hparts, hnames⟩, ?_, fun t => ?_⟩
  · obtain ⟨slash, htext, -⟩ := join_text hrel base
    rw [candidate, htext, List.append_assoc]
    exact List.prefix_append _ _
  · obtain ⟨rest, hrest, hmem⟩ := components_of_parts_append hparts habs
    exact ⟨rest, hrest, fun n hn => hnames n (hmem n hn)⟩
  · rw [FileTree.target, FileTree.target, hparts, FileTree.follow_append, start_candidate h]
    exact FileTree.suffix_follow hup _

/-! ## Names that are refused -/

theorem refuses_of_checkName {e : ArchiveError} (h : checkName name = .error e) (t : FileTree)
    (base : Path) (limit : Nat) : Refuses name e t base limit := by
  have hclaim : claim t base name limit = .error e := by rw [claim, h]
  have hcreate : createUnique t base name limit = .error e := by
    rw [createUnique, hclaim]
    rfl
  have hstore : ∀ payload, store t base name limit payload = .error e := by
    intro payload
    rw [store, hcreate]
    rfl
  refine ⟨?_, ?_, fun payload => ?_, fun pieces ending => ?_⟩
  · show Outcome.mk (.path (uniquePath t base name limit)) t none = _
    rw [uniquePath, h]
  · show runClaim base name limit t = _
    rw [runClaim, hclaim]
  · show runStore base name limit payload t = _
    rw [runStore, hstore]
  · show runWriter base name limit pieces ending t = _
    rw [runWriter, hcreate]

/-- **No name leaves the archive directory.** A name is accepted exactly when it does not begin with
a slash and `..` is not one of the parts between its slashes, and it makes no difference whether
empty parts and `.` are counted among these. For an accepted name every candidate goes on from the
base and stays below it. For any other name nothing is found or made, in any tree, and the tree is
not changed. -/
theorem names_stay_below_base (name : String) :
    (checkName name = .ok () ↔
      ¬ ['/'] <+: name.toList ∧ ['.', '.'] ∉ name.toList.splitOn '/') ∧
    (checkName name = .ok () ↔
      (Path.mk name).isAbsolute = false ∧ ".." ∉ (Path.mk name).components) ∧
    match checkName name with
    | .ok () => ∀ base index, GoesOnFrom base (candidate base name index)
    | .error e => e = .malformed (.leavesDirectory name) ∧
        ∀ t base limit, Refuses name e t base limit := by
  refine ⟨checkName_iff_text, checkName_iff_components, ?_⟩
  cases h : checkName name with
  | ok u => exact candidate_goesOnFrom h
  | error e => exact ⟨checkName_eq_error h, refuses_of_checkName h⟩

end Archive

end MessageArchive
