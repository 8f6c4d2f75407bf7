import MessageArchive.Proofs.FileTree.Target

set_option autoImplicit false

/-! # The paths above a path

The ancestors of a path are written anew from its components, with other slashes and without the
names that stay in place. Still each of them leads to where some of the first names on the path
lead, so the ancestors are the lexical prefixes of the path (`ancestors_leadsTo`).
-/

namespace MessageArchive

/-! ## Names between slashes -/

/-- What stands between slashes holds no slash. -/
theorem not_mem_of_mem_splitOn {α : Type} [BEq α] [LawfulBEq α] {a : α} {xs part : List α}
    (h : part ∈ xs.splitOn a) : a ∉ part := by
  induction xs generalizing part with
  | nil =>
      rw [List.splitOn_nil, List.mem_singleton] at h
      simp [h]
  | cons x xs ih =>
      rw [List.splitOn_cons_eq_if_modifyHead] at h
      split at h
      next hx =>
        rcases List.mem_cons.1 h with rfl | h
        · simp
        · exact ih h
      next hx =>
        obtain ⟨first, rest, hsplit⟩ := List.exists_cons_of_ne_nil (List.splitOn_ne_nil a xs)
        rw [hsplit, List.modifyHead_cons] at h
        rcases List.mem_cons.1 h with rfl | h
        · have hfirst : a ∉ first := ih (by simp [hsplit])
          have hne : a ≠ x := fun hax => hx (by simp [hax])
          simp [hfirst, hne]
        · exact ih (by simp [hsplit, h])

namespace Path

/-- A text that can stand between slashes. -/
def IsName (n : String) : Prop := n.toList ≠ [] ∧ '/' ∉ n.toList

theorem isName_of_mem_parts {p : Path} {n : String} (h : n ∈ p.parts) : IsName n := by
  simp only [parts, List.mem_map, List.mem_filter] at h
  obtain ⟨part, ⟨hmem, hne⟩, rfl⟩ := h
  rw [IsName, String.toList_ofList]
  exact ⟨by simpa using hne, not_mem_of_mem_splitOn hmem⟩

/-- Names joined at slashes are the names of the path they make. -/
theorem parts_intercalate {names : List String} (h : ∀ n ∈ names, IsName n) :
    (Path.mk (String.intercalate "/" names)).parts = names := by
  cases hnames : names with
  | nil => rfl
  | cons first rest =>
      rw [← hnames]
      have hslash : ∀ l ∈ names.map String.toList, '/' ∉ l := by
        intro l hl
        obtain ⟨n, hn, rfl⟩ := List.mem_map.1 hl
        exact (h n hn).2
      have hsplit : (String.intercalate "/" names).toList.splitOn '/' =
          names.map String.toList := by
        rw [String.toList_intercalate]
        exact List.splitOn_intercalate '/' hslash (by simp [hnames])
      have hfilter : (names.map String.toList).filter (fun part => !part.isEmpty) =
          names.map String.toList := by
        rw [List.filter_eq_self]
        intro l hl
        obtain ⟨n, hn, rfl⟩ := List.mem_map.1 hl
        simpa using (h n hn).1
      rw [parts, hsplit, hfilter, List.map_map]
      simp

theorem parts_slash (s : String) : (Path.mk ("/" ++ s)).parts = (Path.mk s).parts := by
  have hlist : ("/" ++ s).toList = '/' :: s.toList := by simp
  rw [parts, hlist, List.splitOn_cons_eq_if_modifyHead]
  simp [parts]

theorem parts_ofComponents (absolute : Bool) {names : List String} (h : ∀ n ∈ names, IsName n) :
    (ofComponents absolute names).parts = names := by
  cases absolute with
  | true => exact (parts_slash _).trans (parts_intercalate h)
  | false =>
      rw [ofComponents, if_neg (by simp), String.empty_append]
      exact parts_intercalate h

theorem isAbsolute_ofComponents (absolute : Bool) {names : List String}
    (h : ∀ n ∈ names, IsName n) : (ofComponents absolute names).isAbsolute = absolute := by
  cases absolute with
  | true =>
      have hlist : (ofComponents true names).text.toList =
          '/' :: (String.intercalate "/" names).toList := by simp [ofComponents]
      rw [isAbsolute, hlist]
      rfl
  | false =>
      rw [isAbsolute, ofComponents, if_neg (by simp), String.empty_append]
      cases names with
      | nil => rfl
      | cons first rest =>
          obtain ⟨hne, hslash⟩ := h first (by simp)
          obtain ⟨c, cs, hfirst⟩ := List.exists_cons_of_ne_nil hne
          rw [hfirst, List.mem_cons, not_or] at hslash
          have hhead : (String.intercalate "/" (first :: rest)).toList.head? = some c := by
            rw [String.toList_intercalate, List.map_cons, hfirst]
            cases rest <;> simp
          rw [hhead]
          simp [Ne.symm hslash.1]

/-! ## Components and their starts -/

/-- Leaving out what stays in place leaves the same of the components as of the names. -/
theorem filter_components (p : Path) :
    p.components.filter (· != ".") = p.parts.filter (· != ".") := by
  rw [components]
  cases p.parts with
  | nil => rfl
  | cons first rest =>
      dsimp only
      split
      next h =>
        rw [Bool.and_eq_true, beq_iff_eq] at h
        simp [h.1]
      next h => simp [List.filter_cons]

theorem mem_parts_of_mem_components {p : Path} {n : String} (h : n ∈ p.components) :
    n ∈ p.parts := by
  rw [components] at h
  split at h
  · simp at h
  next first rest hparts =>
    rw [hparts]
    split at h
    · exact List.mem_cons_of_mem _ (List.mem_filter.1 h).1
    · rcases List.mem_cons.1 h with rfl | h
      · exact List.mem_cons_self
      · exact List.mem_cons_of_mem _ (List.mem_filter.1 h).1

theorem prefix_of_mem_shorterStarts {α : Type} {l front : List α} (h : front ∈ shorterStarts l) :
    front <+: l := by
  induction l generalizing front with
  | nil => simp [shorterStarts] at h
  | cons a rest ih =>
      rw [shorterStarts, List.mem_append, List.mem_map, List.mem_singleton] at h
      rcases h with ⟨shorter, hmem, rfl⟩ | rfl
      · exact (List.prefix_cons_inj a).2 (ih hmem)
      · exact List.nil_prefix

end Path

namespace FileTree

open MessageArchive.Path

theorem follow_filter (here : Location) (names : List String) :
    follow here (names.filter (· != ".")) = follow here names := by
  induction names generalizing here with
  | nil => rfl
  | cons name rest ih =>
      by_cases hdot : name = "."
      · subst hdot
        simp only [follow, if_true, ← ih here]
        rfl
      · have hkeep : (name != ".") = true := by simp [hdot]
        simp only [List.filter_cons, hkeep, if_true, follow, hdot, if_false, ih]

/-- The location is one that the first names on the path lead to, or all of them. -/
def LeadsTo (t : FileTree) (p : Path) (loc : Location) : Prop :=
  ∃ front, front <+: p.parts ∧ loc = follow (t.start p) front

theorem ancestors_leadsTo {t : FileTree} {p q : Path} (h : q ∈ p.ancestors) :
    t.LeadsTo p (t.target q) := by
  rw [ancestors] at h
  rcases List.mem_cons.1 h with rfl | h
  · exact ⟨q.parts, List.prefix_refl _, rfl⟩
  obtain ⟨names, hmem, rfl⟩ := List.mem_map.1 h
  have hpre : names <+: p.components := prefix_of_mem_shorterStarts hmem
  have hnames : ∀ n ∈ names, IsName n := fun n hn =>
    isName_of_mem_parts (mem_parts_of_mem_components (hpre.subset hn))
  -- The names without `.` are the first of those on the path, and `.` leads nowhere.
  have hmoving : names.filter (· != ".") <+: p.parts.filter (· != ".") := by
    rw [← filter_components]
    exact hpre.filter _
  obtain ⟨front, hfront, hsame⟩ := List.prefix_filter_iff.1 hmoving
  refine ⟨front, hfront, ?_⟩
  rw [target, parts_ofComponents _ hnames, start, isAbsolute_ofComponents _ hnames, start,
    ← follow_filter, hsame, follow_filter]

end FileTree

end MessageArchive
