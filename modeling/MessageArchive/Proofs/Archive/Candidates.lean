import MessageArchive.Archive.Name
import MessageArchive.Proofs.FileTree.Joining
import MessageArchive.Text.Decimal

set_option autoImplicit false

/-! # Candidates for a name

A candidate is the name with a number behind it, joined to the base. The number stands behind the
last slash of the name (`behindSlash_candidate`), so it can neither make a name absolute nor turn a
part of it into `..`, and a name that is accepted is accepted with every number
(`checkName_numbered`). Different numbers have different digits, so the candidates lead to different
places (`target_candidate_inj`).
-/

namespace MessageArchive.Archive

open MessageArchive.Path

/-! ## Names that are accepted -/

theorem leavesDirectory_eq_false_iff {name : String} :
    leavesDirectory name = false ↔
      (Path.mk name).isAbsolute = false ∧ ".." ∉ (Path.mk name).parts := by
  rw [leavesDirectory, Bool.or_eq_false_iff, ← Bool.not_eq_true ((Path.mk name).parts.contains ".."),
    List.contains_iff_mem]

theorem checkName_eq_ok_iff {name : String} :
    checkName name = .ok () ↔
      (Path.mk name).isAbsolute = false ∧ ".." ∉ (Path.mk name).parts := by
  rw [← leavesDirectory_eq_false_iff, checkName]
  cases leavesDirectory name with
  | false => simp
  | true => simp

theorem checkName_eq_error {name : String} {e : ArchiveError} (h : checkName name = .error e) :
    e = .malformed (.leavesDirectory name) := by
  rw [checkName] at h
  split at h
  · exact (Except.error.inj h).symm
  · cases h

/-! ## Numbers behind names -/

/-- What stands behind a name for a number. -/
def numbering (index : Nat) : List Char := if index = 0 then [] else '.' :: Text.digits index

theorem numbered_toList (name : String) (index : Nat) :
    (numbered name index).toList = name.toList ++ numbering index := by
  rw [numbered, numbering]
  split
  · simp
  · simp [Text.digits, Nat.toString_eq_repr, Nat.repr]

theorem numbering_zero : numbering 0 = [] := rfl

theorem numbering_inj {i j : Nat} : numbering i = numbering j ↔ i = j := by
  refine ⟨fun h => ?_, fun h => by rw [h]⟩
  by_cases hi : i = 0
  · by_cases hj : j = 0
    · rw [hi, hj]
    · simp [numbering, hi, hj] at h
  · by_cases hj : j = 0
    · simp [numbering, hi, hj] at h
    · simp only [numbering, hi, hj, if_false, List.cons.injEq, true_and] at h
      calc i = Nat.ofDigitChars 10 (Text.digits i) 0 := (Text.ofDigitChars_digits i).symm
        _ = Nat.ofDigitChars 10 (Text.digits j) 0 := by rw [h]
        _ = j := Text.ofDigitChars_digits j

theorem slash_not_mem_numbering (index : Nat) : '/' ∉ numbering index := by
  rw [numbering]
  split
  · exact List.not_mem_nil
  · intro h
    rcases List.mem_cons.1 h with h | h
    · exact absurd h (by decide)
    · exact absurd (Text.isDigit_of_mem_digits h) (by decide)

/-- A number ends in a digit, so nothing that it stands behind becomes `.` or `..`. -/
theorem append_numbering_ne {s : List Char} {index : Nat} (h : index ≠ 0) (dots : List Char)
    (hdots : ∀ c ∈ dots, c = '.') : s ++ numbering index ≠ dots := by
  intro heq
  obtain ⟨c, hc⟩ := List.exists_mem_of_ne_nil _ (Text.digits_ne_nil index)
  have hmem : c ∈ s ++ numbering index := by simp [numbering, h, hc]
  have hdigit := Text.isDigit_of_mem_digits hc
  rw [hdots c (heq ▸ hmem)] at hdigit
  exact absurd hdigit (by decide)

theorem isAbsolute_numbered {name : String} (h : (Path.mk name).isAbsolute = false) (index : Nat) :
    (Path.mk (numbered name index)).isAbsolute = false := by
  rw [isAbsolute, numbered_toList]
  cases hname : name.toList with
  | nil =>
      rw [numbering]
      split
      · rfl
      · rfl
  | cons c rest =>
      rw [isAbsolute, hname] at h
      exact h

/-- Only the text behind the last slash is changed by a number. -/
theorem parts_numbered (name : String) (index : Nat) :
    (Path.mk (numbered name index)).parts =
      namesIn (upToSlash name.toList) ++ namesIn (behindSlash name.toList ++ numbering index) := by
  rw [← namesIn_append (closes_upToSlash _), ← List.append_assoc, upToSlash_append_behindSlash,
    ← numbered_toList]
  rfl

theorem namesIn_behindSlash (s : List Char) (index : Nat) :
    namesIn (behindSlash s ++ numbering index) =
      if behindSlash s ++ numbering index = [] then []
      else [String.ofList (behindSlash s ++ numbering index)] :=
  namesIn_of_not_mem (by simp [slash_not_mem_behindSlash, slash_not_mem_numbering])

/-- A name that is accepted does not end in `..`, whatever number stands behind it. -/
theorem behindSlash_append_ne_up {name : String} (h : checkName name = .ok ()) (index : Nat) :
    behindSlash name.toList ++ numbering index ≠ ['.', '.'] := by
  by_cases hindex : index = 0
  · subst hindex
    intro hup
    have hparts := parts_numbered name 0
    rw [namesIn_behindSlash, hup] at hparts
    refine (checkName_eq_ok_iff.1 h).2 ?_
    show ".." ∈ (Path.mk (numbered name 0)).parts
    rw [hparts]
    exact List.mem_append_right _ (List.mem_singleton_self _)
  · exact append_numbering_ne hindex _ (by simp)

/-- A name that is accepted is accepted with every number. -/
theorem checkName_numbered {name : String} (h : checkName name = .ok ()) (index : Nat) :
    checkName (numbered name index) = .ok () := by
  obtain ⟨hrel, hup⟩ := checkName_eq_ok_iff.1 h
  refine checkName_eq_ok_iff.2 ⟨isAbsolute_numbered hrel index, ?_⟩
  have hname := parts_numbered name 0
  rw [numbered, if_pos rfl] at hname
  rw [hname, List.mem_append, not_or] at hup
  rw [parts_numbered, List.mem_append, not_or, namesIn_behindSlash]
  refine ⟨hup.1, ?_⟩
  split
  · exact List.not_mem_nil
  · rw [List.mem_singleton]
    intro heq
    have hlist := congrArg String.toList heq
    simp only [String.toList_ofList] at hlist
    exact behindSlash_append_ne_up h index hlist.symm

/-! ## Candidates -/

variable {name : String}

theorem parts_candidate (h : checkName name = .ok ()) (base : Path) (index : Nat) :
    (candidate base name index).parts = base.parts ++ (Path.mk (numbered name index)).parts :=
  parts_join (isAbsolute_numbered (checkName_eq_ok_iff.1 h).1 index) base

/-- A candidate ends as the name does, with the number behind it. -/
theorem behindSlash_candidate (h : checkName name = .ok ()) (base : Path) (index : Nat) :
    behindSlash (candidate base name index).text.toList =
      behindSlash name.toList ++ numbering index := by
  have hrel := isAbsolute_numbered (checkName_eq_ok_iff.1 h).1 index
  obtain ⟨slash, htext, hcloses, -, -⟩ := join_text hrel base
  rw [candidate, htext, behindSlash_append hcloses, numbered_toList,
    behindSlash_append_of_not_mem _ (slash_not_mem_numbering index)]

theorem start_candidate (h : checkName name = .ok ()) (t : FileTree) (base : Path) (index : Nat) :
    t.start (candidate base name index) = t.start base := by
  have hrel := isAbsolute_numbered (checkName_eq_ok_iff.1 h).1 index
  rw [FileTree.start, FileTree.start, candidate, isAbsolute_join hrel]

/-! ### Where candidates lead -/

/-- The text behind the last slash of a name leads into the directory before it, unless it stays
there. -/
theorem follow_own {s : List Char} (hslash : '/' ∉ s) (hup : s ≠ ['.', '.']) (here : Location) :
    FileTree.follow here (namesIn s) =
      if s = [] ∨ s = ['.'] then here else String.ofList s :: here := by
  rw [namesIn_of_not_mem hslash]
  by_cases hnil : s = []
  · simp [hnil, FileTree.follow]
  by_cases hdot : s = ['.']
  · subst hdot
    rfl
  have hne : ∀ dots : List Char, s ≠ dots → String.ofList s ≠ String.ofList dots := fun dots h heq =>
    h (by simpa using congrArg String.toList heq)
  rw [if_neg hnil, if_neg (by simp [hnil, hdot]), FileTree.follow_name (hne ['.'] hdot) (hne _ hup)]

theorem target_candidate (h : checkName name = .ok ()) (t : FileTree) (base : Path) (index : Nat) :
    t.target (candidate base name index) =
      FileTree.follow (FileTree.follow (t.start base) (base.parts ++ namesIn (upToSlash name.toList)))
        (namesIn (behindSlash name.toList ++ numbering index)) := by
  rw [FileTree.target, start_candidate h, parts_candidate h, parts_numbered, ← List.append_assoc,
    FileTree.follow_append]

/-- **Candidates with different numbers lead to different places**, whatever the name ends in. -/
theorem target_candidate_inj (h : checkName name = .ok ()) (t : FileTree) (base : Path)
    {i j : Nat} :
    t.target (candidate base name i) = t.target (candidate base name j) ↔ i = j := by
  refine ⟨fun heq => ?_, fun heq => by rw [heq]⟩
  have hslash : ∀ index, '/' ∉ behindSlash name.toList ++ numbering index := fun index => by
    simp [slash_not_mem_behindSlash, slash_not_mem_numbering]
  rw [target_candidate h, target_candidate h, follow_own (hslash i) (behindSlash_append_ne_up h i),
    follow_own (hslash j) (behindSlash_append_ne_up h j)] at heq
  -- Only a candidate without a number can stay in the directory that the others lead into.
  have hstays : ∀ index, behindSlash name.toList ++ numbering index = [] ∨
      behindSlash name.toList ++ numbering index = ['.'] → index = 0 := by
    intro index hdots
    by_contra hindex
    rcases hdots with hnil | hdot
    · exact append_numbering_ne hindex [] (by simp) hnil
    · exact append_numbering_ne hindex _ (by simp) hdot
  split at heq
  next hi =>
    split at heq
    next hj => rw [hstays i hi, hstays j hj]
    next => exact absurd heq (List.cons_ne_self _ _).symm
  next =>
    split at heq
    next => exact absurd heq (List.cons_ne_self _ _)
    next =>
      have hlast := congrArg String.toList (List.cons.inj heq).1
      simp only [String.toList_ofList] at hlast
      exact numbering_inj.1 (List.append_cancel_left hlast)

end MessageArchive.Archive
