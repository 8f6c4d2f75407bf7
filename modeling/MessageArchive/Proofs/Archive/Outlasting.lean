import Mathlib.Data.Finset.Card
import Mathlib.Order.Interval.Finset.Nat
import MessageArchive.Proofs.Archive.Searching

set_option autoImplicit false

/-! # More candidates than files

A search that may try as many numbers as there are files and directories finds a name. A candidate
with a number that exists has a place of its own below the root (`place_of_exists`), since the number
stands behind the last slash and makes a proper name of what the name ends in. Different numbers have
different places. So there are fewer such candidates than files and directories, the root being one of
these and no candidate with a number (`lt_count_of_exists`).

The same holds of candidates that cannot be made because there is something already. This needs no
look at the working directory: a path that ends in a proper name is said to exist already only where
it names something (`FileTree.pathExists_of_alreadyExists_proper`).
-/

namespace MessageArchive

namespace FileTree

open MessageArchive.Path

/-! ## Files and directories -/

theorem isSome_findEntry_iff {loc : Location} {entries : List (Location × Node)} :
    (findEntry loc entries).isSome ↔ loc ∈ entries.map Prod.fst := by
  induction entries with
  | nil => simp [findEntry]
  | cons entry rest ih =>
      obtain ⟨l, node⟩ := entry
      rw [findEntry, List.map_cons, List.mem_cons]
      split
      next h => simp [h]
      next h => simp [ih, Ne.symm h]

/-- The locations at which there is a file or a directory. -/
def places (t : FileTree) : Finset Location := insert [] (t.entries.map Prod.fst).toFinset

theorem mem_places_iff {t : FileTree} {loc : Location} :
    loc ∈ t.places ↔ (t.node? loc).isSome := by
  rw [places, Finset.mem_insert, List.mem_toFinset, node?]
  split
  next h => simp [h]
  next h => simp [h, isSome_findEntry_iff]

/-- The number of files and directories, the root included. -/
def count (t : FileTree) : Nat := t.places.card

/-- There are more files and directories than different ones that are not the root. -/
theorem lt_count {t : FileTree} {f : Nat → Location} {n : Nat}
    (hinj : ∀ i j, f i = f j → i = j) (hroot : ∀ i ∈ Finset.Icc 1 n, f i ≠ [])
    (hsome : ∀ i ∈ Finset.Icc 1 n, (t.node? (f i)).isSome) : n < t.count := by
  have hsub : (Finset.Icc 1 n).image f ⊆ t.places.erase [] := by
    intro loc hloc
    obtain ⟨i, hi, rfl⟩ := Finset.mem_image.1 hloc
    exact Finset.mem_erase.2 ⟨hroot i hi, mem_places_iff.2 (hsome i hi)⟩
  have himage : ((Finset.Icc 1 n).image f).card = n := by
    rw [Finset.card_image_of_injective _ fun i j h => hinj i j h, Nat.card_Icc]
    omega
  have hmem : [] ∈ t.places := mem_places_iff.2 rfl
  have hpos : 0 < t.places.card := Finset.card_pos.2 ⟨[], hmem⟩
  have hle := Finset.card_le_card hsub
  rw [himage, Finset.card_erase_of_mem hmem] at hle
  rw [count]
  omega

/-- Of a path that ends in a proper name, only what it names is said to exist already. -/
theorem pathExists_of_alreadyExists_proper {t : FileTree} {p : Path}
    (hproper : IsProper (behindSlash p.text.toList))
    (h : t.createNew p = .error .alreadyExists) : t.pathExists p = true := by
  refine pathExists_of_taken (fun hslot => ?_) h
  -- Without a slot the path would end in dots, or nowhere.
  have hparts := parts_of_isProper hproper
  obtain ⟨-, hnil | ⟨names, last, dir, hnames, hdots, -, -⟩⟩ := slot_eq_none_cases hslot
  · rw [hparts] at hnil
    exact absurd hnil (by simp)
  · rw [hparts] at hnames
    have hlast : p.ownName = last := by
      have hsame := congrArg List.getLast? hnames
      rw [List.getLast?_concat, List.getLast?_concat] at hsame
      exact Option.some.inj hsame
    rw [← hlast] at hdots
    obtain ⟨hdot, hup⟩ := ownName_ne hproper
    exact absurd hdots (by simp [hdot, hup])

end FileTree

namespace Archive

open MessageArchive.Path

variable {t : FileTree} {base : Path} {name : String} {limit : Nat}

/-! ## Candidates with a number -/

/-- With a number, a candidate ends in a proper name, whatever the name ends in. -/
theorem isProper_candidate_of_ne_zero (h : checkName name = .ok ()) (base : Path) {index : Nat}
    (hindex : index ≠ 0) : IsProper (behindSlash (candidate base name index).text.toList) := by
  rw [behindSlash_candidate h]
  refine ⟨?_, ?_, ?_⟩
  · exact append_numbering_ne hindex [] (by simp)
  · exact append_numbering_ne hindex ['.'] (by simp)
  · exact append_numbering_ne hindex ['.', '.'] (by simp)

theorem place_of_exists (h : checkName name = .ok ()) {index : Nat} (hindex : index ≠ 0)
    (hexists : t.pathExists (candidate base name index) = true) :
    t.target (candidate base name index) ≠ [] ∧
      (t.node? (t.target (candidate base name index))).isSome := by
  have hproper := isProper_candidate_of_ne_zero h base hindex
  have hslot := FileTree.fileSlot_of_exists hproper hexists
  refine ⟨hslot.ne_root, ?_⟩
  rw [← hslot.pathExists_eq]
  exact hexists

/-- **There are more files and directories than candidates with a number that exist.** -/
theorem lt_count_of_exists (h : checkName name = .ok ()) {n : Nat}
    (hexists : ∀ i, 1 ≤ i → i ≤ n → t.pathExists (candidate base name i) = true) :
    n < t.count := by
  have hplace : ∀ i ∈ Finset.Icc 1 n, t.target (candidate base name i) ≠ [] ∧
      (t.node? (t.target (candidate base name i))).isSome := by
    intro i hi
    obtain ⟨hpos, hle⟩ := Finset.mem_Icc.1 hi
    exact place_of_exists h (Nat.ne_of_gt hpos) (hexists i hpos hle)
  apply FileTree.lt_count (f := fun i => t.target (candidate base name i))
  · intro i j hij
    exact (target_candidate_inj h t base).1 hij
  · intro i hi
    exact (hplace i hi).1
  · intro i hi
    exact (hplace i hi).2

/-- A number below which all candidates exist is at most the number of files and directories. -/
theorem LeastFree.le_count (h : checkName name = .ok ()) {i : Nat}
    (hi : LeastFree t base name limit i) : i ≤ t.count := by
  have hlt : i - 1 < t.count := by
    apply lt_count_of_exists h
    intro j hpos hle
    exact hi.below j (by omega)
  omega

theorem not_allTaken_of_count_le (h : checkName name = .ok ()) (hlimit : t.count ≤ limit) :
    ¬ AllTaken t base name limit := by
  intro htaken
  have hlt : limit < t.count := lt_count_of_exists h fun i _ hle => htaken i hle
  omega

theorem not_passedOver_of_count_le (h : checkName name = .ok ()) (hlimit : t.count ≤ limit) :
    ¬ PassedOver t base name (limit + 1) := by
  intro hpassed
  have hlt : limit < t.count := by
    apply lt_count_of_exists h
    intro i hpos hle
    have hproper := isProper_candidate_of_ne_zero h base (Nat.ne_of_gt hpos)
    exact FileTree.pathExists_of_alreadyExists_proper hproper (hpassed i (by omega))
  omega

/-! ## Searches -/

/-- How a search ends that may try as many numbers as there are files and directories. -/
structure Outlasts (t : FileTree) (base : Path) (name : String) (limit : Nat) : Prop where
  /-- Looking gives the least candidate that names nothing, and its number is at most the number of
  files and directories. -/
  found : ∃ i, i ≤ t.count ∧ LeastFree t base name limit i ∧
    uniquePath t base name limit = .ok (candidate base name i)
  /-- A claim does not fail for want of a name. -/
  claims : ∀ p attempts, claim t base name limit ≠ .error (.noUniqueName p attempts)
  /-- No file and no directory is named by candidates of different numbers. -/
  apart : ∀ i j loc, t.locate (candidate base name i) = .ok loc →
    t.locate (candidate base name j) = .ok loc → i = j

/-- **A search does not run out of names before the tree runs out of files.** With a limit that is
not below the number of files and directories, looking finds a candidate whose number is not above it
either, and a claim never fails for want of a name. Candidates of different numbers never name the same
file or directory, whatever the name ends in. -/
theorem names_outlast_files (h : checkName name = .ok ()) (hlimit : t.count ≤ limit) :
    Outlasts t base name limit where
  found := by
    rcases uniquePath_cases h t base limit with ⟨i, hi, hresult⟩ | ⟨htaken, -⟩
    · exact ⟨i, hi.le_count h, hi, hresult⟩
    · exact absurd htaken (not_allTaken_of_count_le h hlimit)
  claims p attempts hclaim := by
    have hend := claim_end h t base limit
    rw [hclaim] at hend
    cases hend with
    | exhausted hpassed => exact not_passedOver_of_count_le h hlimit hpassed
  apart i j loc hi hj := by
    have htarget := (FileTree.locate_eq_target hi).symm.trans (FileTree.locate_eq_target hj)
    exact (target_candidate_inj h t base).1 htarget

/-- A tree in which the root and everything else is named by candidates for the empty name. -/
def allNumbered : FileTree where
  entries := [([".1"], .directory), ([".2"], .file [1])]

/-- There the search needs all of its numbers. -/
theorem names_outlast_files_allNumbered :
    checkName "" = .ok () ∧ allNumbered.count ≤ 3 ∧
      uniquePath allNumbered ⟨"/"⟩ "" 3 = .ok (candidate ⟨"/"⟩ "" 3) ∧
      uniquePath allNumbered ⟨"/"⟩ "" 2 = .error (.noUniqueName ⟨"/"⟩ 2) ∧
      Outlasts allNumbered ⟨"/"⟩ "" 3 :=
  ⟨by decide, by decide, by decide, by decide,
    names_outlast_files (by decide) (by decide)⟩

end Archive

end MessageArchive
