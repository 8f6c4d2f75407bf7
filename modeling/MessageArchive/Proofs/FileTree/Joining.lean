import Mathlib.Data.List.DropRight
import MessageArchive.FileTree.Path
import MessageArchive.Proofs.FileTree.Ancestors

set_option autoImplicit false

/-! # Paths put together

A name is put behind a path at a slash, so the names on the path come first and those of the name
after them (`parts_join`). What a name ends with is the text behind its last slash; joining does
not change it (`behindSlash_append`).
-/

namespace MessageArchive.Path

/-! ## The names in a text -/

/-- The names between the slashes of a text. -/
def namesIn (s : List Char) : List String :=
  ((s.splitOn '/').filter fun part => !part.isEmpty).map String.ofList

/-- A name can begin behind this text: it is empty, or a slash ends it. -/
def Closes (above : List Char) : Prop := above = [] ∨ ∃ front, above = front ++ ['/']

theorem parts_eq_namesIn (p : Path) : p.parts = namesIn p.text.toList := rfl

theorem namesIn_of_not_mem {s : List Char} (h : '/' ∉ s) :
    namesIn s = if s = [] then [] else [String.ofList s] := by
  rw [namesIn, List.splitOn_eq_singleton h]
  cases s with
  | nil => rfl
  | cons c rest => rfl

theorem namesIn_append_slash (s more : List Char) :
    namesIn (s ++ '/' :: more) = namesIn s ++ namesIn more := by
  simp only [namesIn, List.splitOn_append_cons_self, List.filter_append, List.map_append]

theorem namesIn_append {above : List Char} (h : Closes above) (more : List Char) :
    namesIn (above ++ more) = namesIn above ++ namesIn more := by
  rcases h with rfl | ⟨front, rfl⟩
  · rfl
  · have hfront : namesIn (front ++ ['/']) = namesIn front := by
      rw [namesIn_append_slash, namesIn_of_not_mem List.not_mem_nil]
      simp
    rw [List.append_assoc, List.singleton_append, namesIn_append_slash, hfront]

/-! ## The last slash -/

/-- The text up to and with its last slash. -/
def upToSlash (s : List Char) : List Char := s.rdropWhile (· != '/')

/-- The text behind its last slash, and all of it where there is none. -/
def behindSlash (s : List Char) : List Char := s.rtakeWhile (· != '/')

theorem upToSlash_append_behindSlash (s : List Char) : upToSlash s ++ behindSlash s = s :=
  List.rdropWhile_append_rtakeWhile

theorem slash_not_mem_behindSlash (s : List Char) : '/' ∉ behindSlash s := by
  intro h
  simpa using List.mem_rtakeWhile_imp h

theorem closes_upToSlash (s : List Char) : Closes (upToSlash s) := by
  unfold upToSlash
  by_cases hnil : s.rdropWhile (· != '/') = []
  · exact Or.inl hnil
  · have hlast : (s.rdropWhile (· != '/')).getLast hnil = '/' := by
      simpa using List.rdropWhile_last_not (· != '/') s hnil
    have hfull := List.dropLast_append_getLast hnil
    rw [hlast] at hfull
    exact Or.inr ⟨_, hfull.symm⟩

/-- The last slash of a text is found by what stands on either side of it. -/
theorem behindSlash_unique {above last : List Char} (habove : Closes above) (hlast : '/' ∉ last) :
    behindSlash (above ++ last) = last := by
  have hall : ∀ c ∈ last.reverse, (c != '/') = true := by
    intro c hc
    have hne : c ≠ '/' := fun h => hlast (h ▸ List.mem_reverse.1 hc)
    simpa using hne
  rw [behindSlash, List.rtakeWhile, List.reverse_append, List.takeWhile_append_of_pos hall]
  rcases habove with rfl | ⟨front, rfl⟩
  · simp
  · simp

theorem behindSlash_append {above : List Char} (h : Closes above) (s : List Char) :
    behindSlash (above ++ s) = behindSlash s := by
  have hall : Closes (above ++ upToSlash s) := by
    rcases closes_upToSlash s with hs | ⟨front, hs⟩
    · simpa [hs] using h
    · exact Or.inr ⟨above ++ front, by rw [hs, List.append_assoc]⟩
  have hunique := behindSlash_unique hall (slash_not_mem_behindSlash s)
  rwa [List.append_assoc, upToSlash_append_behindSlash] at hunique

theorem behindSlash_append_of_not_mem (s : List Char) {w : List Char} (hw : '/' ∉ w) :
    behindSlash (s ++ w) = behindSlash s ++ w := by
  have hlast : '/' ∉ behindSlash s ++ w := by simp [slash_not_mem_behindSlash, hw]
  have hunique := behindSlash_unique (closes_upToSlash s) hlast
  rwa [← List.append_assoc, upToSlash_append_behindSlash] at hunique

/-! ## Joining -/

/-- A joined path as a text: the path, perhaps a slash, and the name. -/
theorem join_text {name : String} (h : (Path.mk name).isAbsolute = false) (base : Path) :
    ∃ slash, (base.join name).text.toList = base.text.toList ++ slash ++ name.toList ∧
      Closes (base.text.toList ++ slash) ∧ namesIn (base.text.toList ++ slash) = base.parts ∧
      (base.text.toList = [] → slash = []) := by
  rw [join, if_neg (by simp [h])]
  split
  next hclosed =>
    refine ⟨[], by simp, ?_, by rw [List.append_nil, parts_eq_namesIn], fun _ => rfl⟩
    rw [Bool.or_eq_true, String.isEmpty_iff, endsWithSlash, beq_iff_eq] at hclosed
    rw [List.append_nil]
    rcases hclosed with hempty | hslash
    · exact Or.inl (by simp [hempty])
    · exact Or.inr (List.getLast?_eq_some_iff.1 hslash)
  next hopen =>
    have hempty : base.text.toList ≠ [] := by
      intro hnil
      rw [String.toList_eq_nil_iff] at hnil
      simp [hnil] at hopen
    refine ⟨['/'], by simp, Or.inr ⟨_, rfl⟩, ?_, fun hnil => absurd hnil hempty⟩
    rw [namesIn_append_slash, namesIn_of_not_mem List.not_mem_nil, parts_eq_namesIn]
    simp

/-- The names of the base come first, those of the name after them. -/
theorem parts_join {name : String} (h : (Path.mk name).isAbsolute = false) (base : Path) :
    (base.join name).parts = base.parts ++ (Path.mk name).parts := by
  obtain ⟨slash, htext, hcloses, hbase, -⟩ := join_text h base
  rw [parts_eq_namesIn, htext, namesIn_append hcloses, hbase]
  rfl

theorem isAbsolute_join {name : String} (h : (Path.mk name).isAbsolute = false) (base : Path) :
    (base.join name).isAbsolute = base.isAbsolute := by
  obtain ⟨slash, htext, -, -, hslash⟩ := join_text h base
  rw [isAbsolute, htext, isAbsolute]
  cases hbase : base.text.toList with
  | nil =>
      rw [hslash hbase]
      exact h
  | cons c rest => rfl

/-! ## Components -/

theorem mem_components_of_mem_parts {p : Path} {n : String} (h : n ∈ p.parts) (hdot : n ≠ ".") :
    n ∈ p.components := by
  have hmem : n ∈ p.parts.filter (· != ".") := List.mem_filter.2 ⟨h, by simpa using hdot⟩
  rw [← filter_components] at hmem
  exact (List.mem_filter.1 hmem).1

/-- A path that goes on from another one has the components of the other one, and then some of the
names it goes on with. -/
theorem components_of_parts_append {p q : Path} {names : List String}
    (hparts : q.parts = p.parts ++ names) (habs : q.isAbsolute = p.isAbsolute) :
    ∃ rest, q.components = p.components ++ rest ∧ ∀ n ∈ rest, n ∈ names := by
  cases hp : p.parts with
  | nil =>
      have hnone : p.components = [] := by rw [components, hp]
      rw [hp, List.nil_append] at hparts
      refine ⟨q.components, by rw [hnone, List.nil_append], fun n hn => ?_⟩
      rw [← hparts]
      exact mem_parts_of_mem_components hn
  | cons first rest =>
      rw [hp, List.cons_append] at hparts
      -- Whether a first `.` is kept is the same for both paths.
      refine ⟨names.filter (· != "."), ?_, fun n hn => (List.mem_filter.1 hn).1⟩
      simp only [components, hp, hparts, habs, List.filter_append]
      split
      · rfl
      · rfl

/-- A path that goes on with one name has one component more. -/
theorem components_of_parts_concat {p q : Path} {n : String} (hparts : q.parts = p.parts ++ [n])
    (habs : q.isAbsolute = p.isAbsolute) (hdot : n ≠ ".") : q.components = p.components ++ [n] := by
  cases hp : p.parts with
  | nil =>
      rw [hp] at hparts
      simp [components, hp, hparts, hdot]
  | cons first rest =>
      rw [hp] at hparts
      simp only [components, hp, hparts, List.cons_append, habs, List.filter_append]
      split
      · simp [hdot]
      · simp [hdot]

end MessageArchive.Path
