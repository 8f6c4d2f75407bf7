import MessageArchive.Proofs.Archive.Candidates
import MessageArchive.Proofs.Archive.Writing
import MessageArchive.Proofs.FileTree.Creating

set_option autoImplicit false

/-! # Looking for a free name and claiming one

The two searches go through the same candidates, and each asks its own question: `uniquePath`
whether a candidate names something, `claim` whether a file can be made. Each has a lemma that says
all it can come to (`uniquePath_cases`, `claim_end`). Since a file is said to exist already only
where the path names something, the claim never passes over a candidate that the other search would
have given, so the two agree but for failures of the file tree (`searches_agree`).
-/

namespace MessageArchive.Archive

open MessageArchive.Path

variable {t : FileTree} {base : Path} {name : String} {limit : Nat}

/-- The least number up to the limit whose candidate names nothing. -/
structure LeastFree (t : FileTree) (base : Path) (name : String) (limit i : Nat) : Prop where
  le : i ≤ limit
  free : t.pathExists (candidate base name i) = false
  below : ∀ j < i, t.pathExists (candidate base name j) = true

/-- Every candidate up to the limit names something. -/
def AllTaken (t : FileTree) (base : Path) (name : String) (limit : Nat) : Prop :=
  ∀ i ≤ limit, t.pathExists (candidate base name i) = true

theorem LeastFree.unique {i j : Nat} (hi : LeastFree t base name limit i)
    (hj : LeastFree t base name limit j) : i = j := by
  rcases Nat.lt_trichotomy i j with h | h | h
  · exact absurd (hj.below i h) (by simp [hi.free])
  · exact h
  · exact absurd (hi.below j h) (by simp [hj.free])

theorem LeastFree.not_allTaken {i : Nat} (h : LeastFree t base name limit i) :
    ¬ AllTaken t base name limit := fun htaken => absurd (htaken i h.le) (by simp [h.free])

/-! ## Looking -/

theorem firstFree_cases {more index : Nat}
    (hbelow : ∀ j < index, t.pathExists (candidate base name j) = true)
    (hmore : index + more = limit + 1) :
    (∃ i, LeastFree t base name limit i ∧
      firstFree t base name more index = some (candidate base name i)) ∨
    AllTaken t base name limit ∧ firstFree t base name more index = none := by
  induction more generalizing index with
  | zero => exact Or.inr ⟨fun i hi => hbelow i (by omega), rfl⟩
  | succ more ih =>
      rw [firstFree]
      split
      next htaken =>
        refine ih (fun j hj => ?_) (by omega)
        rcases Nat.lt_succ_iff_lt_or_eq.1 hj with hj | rfl
        · exact hbelow j hj
        · exact htaken
      next hfree =>
        rw [Bool.not_eq_true] at hfree
        exact Or.inl ⟨index, ⟨by omega, hfree, hbelow⟩, rfl⟩

theorem uniquePath_cases (h : checkName name = .ok ()) (t : FileTree) (base : Path)
    (limit : Nat) :
    (∃ i, LeastFree t base name limit i ∧
      uniquePath t base name limit = .ok (candidate base name i)) ∨
    AllTaken t base name limit ∧
      uniquePath t base name limit = .error (.noUniqueName (base.join name) limit) := by
  have hbelow : ∀ j < 0, t.pathExists (candidate base name j) = true :=
    fun j hj => absurd hj (Nat.not_lt_zero j)
  rw [uniquePath, h]
  rcases firstFree_cases hbelow (Nat.zero_add (limit + 1)) with ⟨i, hi, hfirst⟩ | ⟨htaken, hfirst⟩
  · exact Or.inl ⟨i, hi, by rw [hfirst]⟩
  · exact Or.inr ⟨htaken, by rw [hfirst]⟩

theorem uniquePath_eq_ok_iff (h : checkName name = .ok ()) {p : Path} :
    uniquePath t base name limit = .ok p ↔
      ∃ i, LeastFree t base name limit i ∧ p = candidate base name i := by
  rcases uniquePath_cases h t base limit with ⟨i, hi, hresult⟩ | ⟨htaken, hresult⟩
  · rw [hresult, Except.ok.injEq]
    constructor
    · rintro rfl
      exact ⟨i, hi, rfl⟩
    · rintro ⟨j, hj, rfl⟩
      rw [hi.unique hj]
  · rw [hresult]
    simp only [reduceCtorEq, false_iff, not_exists, not_and]
    intro i hi
    exact absurd htaken hi.not_allTaken

theorem uniquePath_eq_noUniqueName_iff (h : checkName name = .ok ()) :
    uniquePath t base name limit = .error (.noUniqueName (base.join name) limit) ↔
      AllTaken t base name limit := by
  rcases uniquePath_cases h t base limit with ⟨i, hi, hresult⟩ | ⟨htaken, hresult⟩
  · simp only [hresult, reduceCtorEq, false_iff]
    exact hi.not_allTaken
  · simp only [hresult, true_iff]
    exact htaken

/-! ## Claiming -/

/-- The candidates below a number are said to exist already. -/
def PassedOver (t : FileTree) (base : Path) (name : String) (i : Nat) : Prop :=
  ∀ j < i, t.createNew (candidate base name j) = .error .alreadyExists

/-- What a claim can come to: some candidates are passed over, and then one is made, or one cannot
be made, or there is none left. -/
inductive ClaimEnd (t : FileTree) (base : Path) (name : String) (limit : Nat) :
    Except ArchiveError (FileTree × Claim) → Prop
  | made (i : Nat) (made : FileTree) (loc : Location) (le : i ≤ limit)
      (passed : PassedOver t base name i)
      (created : t.createNew (candidate base name i) = .ok (made, loc)) :
      ClaimEnd t base name limit (.ok (made, ⟨candidate base name i, loc⟩))
  | failed (i : Nat) (cause : FileError) (le : i ≤ limit) (passed : PassedOver t base name i)
      (refused : t.createNew (candidate base name i) = .error cause)
      (other : cause ≠ .alreadyExists) :
      ClaimEnd t base name limit (.error (.file (.createFile (candidate base name i)) cause))
  | exhausted (passed : PassedOver t base name (limit + 1)) :
      ClaimEnd t base name limit (.error (.noUniqueName (base.join name) limit))

theorem claimFrom_end {more index : Nat} (hpassed : PassedOver t base name index)
    (hmore : index + more = limit + 1) :
    ClaimEnd t base name limit (claimFrom t base name limit more index) := by
  induction more generalizing index with
  | zero =>
      obtain rfl : index = limit + 1 := hmore
      exact .exhausted hpassed
  | succ more ih =>
      unfold claimFrom
      split
      next made loc hmade => exact .made index made loc (by omega) hpassed hmade
      next hexists =>
        refine ih (fun j hj => ?_) (by omega)
        rcases Nat.lt_succ_iff_lt_or_eq.1 hj with hj | rfl
        · exact hpassed j hj
        · exact hexists
      next cause hother hcause =>
        exact .failed index cause (by omega) hpassed hcause hother

theorem claim_end (h : checkName name = .ok ()) (t : FileTree) (base : Path) (limit : Nat) :
    ClaimEnd t base name limit (claim t base name limit) := by
  have hpassed : PassedOver t base name 0 := fun j hj => absurd hj (Nat.not_lt_zero j)
  rw [claim, h]
  exact claimFrom_end hpassed (Nat.zero_add (limit + 1))

/-- A candidate that can be made is claimed when those below it are passed over. -/
theorem claim_of_created (h : checkName name = .ok ()) {i : Nat} (hle : i ≤ limit)
    (hpassed : PassedOver t base name i) {made : FileTree} {loc : Location}
    (hcreated : t.createNew (candidate base name i) = .ok (made, loc)) :
    claim t base name limit = .ok (made, ⟨candidate base name i, loc⟩) := by
  have hend := claim_end h t base limit
  generalize claim t base name limit = result at hend
  -- Below the candidate all is passed over, and beyond it nobody comes.
  cases hend with
  | made j made' loc' hle' hpassed' hcreated' =>
      rcases Nat.lt_trichotomy j i with hj | rfl | hj
      · exact absurd ((hpassed j hj).symm.trans hcreated') (by simp)
      · rw [hcreated, Except.ok.injEq, Prod.mk.injEq] at hcreated'
        rw [hcreated'.1, hcreated'.2]
      · exact absurd ((hpassed' i hj).symm.trans hcreated) (by simp)
  | failed j cause hle' hpassed' hrefused hother =>
      rcases Nat.lt_trichotomy j i with hj | rfl | hj
      · exact absurd (Except.error.inj (hrefused.symm.trans (hpassed j hj))) hother
      · exact absurd (hrefused.symm.trans hcreated) (by simp)
      · exact absurd ((hpassed' i hj).symm.trans hcreated) (by simp)
  | exhausted hpassed' => exact absurd ((hpassed' i (by omega)).symm.trans hcreated) (by simp)

/-- There is nothing to claim when all candidates are passed over. -/
theorem claim_of_passedOver (h : checkName name = .ok ())
    (hpassed : PassedOver t base name (limit + 1)) :
    claim t base name limit = .error (.noUniqueName (base.join name) limit) := by
  have hend := claim_end h t base limit
  generalize claim t base name limit = result at hend
  cases hend with
  | made j made loc hle _ hcreated =>
      exact absurd ((hpassed j (by omega)).symm.trans hcreated) (by simp)
  | failed j cause hle _ hrefused hother =>
      exact absurd (Except.error.inj (hrefused.symm.trans (hpassed j (by omega)))) hother
  | exhausted => rfl

/-! ## Both searches -/

/-- What is passed over by the one search is passed over by the other. -/
theorem PassedOver.exists (hanchored : t.Anchored) {i : Nat} (h : PassedOver t base name i) :
    ∀ j < i, t.pathExists (candidate base name j) = true := fun j hj =>
  FileTree.pathExists_of_alreadyExists hanchored (h j hj)

theorem leastFree_of_created {i : Nat} {made : FileTree} {loc : Location} (hle : i ≤ limit)
    (hbelow : ∀ j < i, t.pathExists (candidate base name j) = true)
    (h : t.createNew (candidate base name i) = .ok (made, loc)) :
    LeastFree t base name limit i := by
  obtain ⟨hslot, -⟩ := FileTree.createNew_eq_ok_iff.1 h
  exact ⟨hle, hslot.not_exists hslot.free, hbelow⟩

/-- How the two searches go together for a name that is accepted. -/
structure SearchesAgree (t : FileTree) (base : Path) (name : String) (limit : Nat) : Prop where
  /-- Looking gives the candidate with the least number that names nothing. -/
  found : ∀ p, uniquePath t base name limit = .ok p ↔
    ∃ i, LeastFree t base name limit i ∧ p = candidate base name i
  /-- It gives none when all of them name something. -/
  exhausted : uniquePath t base name limit = .error (.noUniqueName (base.join name) limit) ↔
    AllTaken t base name limit
  /-- A file that is claimed is new, and under the path that looking gives. -/
  claimed : ∀ made c, claim t base name limit = .ok (made, c) →
    uniquePath t base name limit = .ok c.path ∧ NewFile t made c.path []
  /-- The path that looking gives is claimed, unless the file tree fails. -/
  searched : ∀ p, uniquePath t base name limit = .ok p →
    claim t base name limit = .ok (t.put (t.target p) (.file []), ⟨p, t.target p⟩) ∨
      ∃ task cause, claim t base name limit = .error (.file task cause)
  /-- When there is nothing left to claim, nothing is found. -/
  noneLeft : ∀ p n, claim t base name limit = .error (.noUniqueName p n) →
    uniquePath t base name limit = .error (.noUniqueName p n)
  /-- A legal path in a directory that is there is claimed, for a name that ends in a proper one. -/
  creates : ∀ p, uniquePath t base name limit = .ok p → behindSlash name.toList ≠ [] →
    behindSlash name.toList ≠ ['.'] → t.isDir p.directory = true → p.Legal →
      claim t base name limit = .ok (t.put (t.target p) (.file []), ⟨p, t.target p⟩)

theorem claim_newFile {made : FileTree} {c : Claim}
    (h : claim t base name limit = .ok (made, c)) : NewFile t made c.path [] := by
  have hcreate : createUnique t base name limit =
      .ok (made, { path := c.path, location := c.location }) := by
    rw [createUnique, h]
    rfl
  -- A claimed file is what a writer leaves that has written nothing.
  exact (stored_of_writeAll hcreate []).newFile

/-! ### What looking gives is claimed -/

theorem claim_of_uniquePath (hanchored : t.Anchored) (h : checkName name = .ok ()) {p : Path}
    (hp : uniquePath t base name limit = .ok p) :
    claim t base name limit = .ok (t.put (t.target p) (.file []), ⟨p, t.target p⟩) ∨
      ∃ task cause, claim t base name limit = .error (.file task cause) := by
  obtain ⟨i, hi, rfl⟩ := (uniquePath_eq_ok_iff h).1 hp
  have hend := claim_end h t base limit
  generalize claim t base name limit = result at hend
  cases hend with
  | made j made loc hle hpassed hcreated =>
      obtain rfl := hi.unique (leastFree_of_created hle (hpassed.exists hanchored) hcreated)
      obtain ⟨hslot, rfl⟩ := FileTree.createNew_eq_ok_iff.1 hcreated
      exact Or.inl (by rw [hslot.target])
  | failed j cause => exact Or.inr ⟨_, cause, rfl⟩
  | exhausted hpassed =>
      have htaken : AllTaken t base name limit := fun j hj => hpassed.exists hanchored j (by omega)
      exact absurd htaken hi.not_allTaken

/-- A candidate ends in a proper name when the name does. -/
theorem isProper_candidate (h : checkName name = .ok ()) (hne : behindSlash name.toList ≠ [])
    (hdot : behindSlash name.toList ≠ ['.']) (base : Path) (index : Nat) :
    IsProper (behindSlash (candidate base name index).text.toList) := by
  rw [behindSlash_candidate h]
  refine ⟨?_, ?_, behindSlash_append_ne_up h index⟩
  · intro heq
    exact hne (List.append_eq_nil_iff.1 heq).1
  · by_cases hindex : index = 0
    · rw [hindex, numbering_zero, List.append_nil]
      exact hdot
    · exact append_numbering_ne hindex _ (by simp)

theorem claim_of_legal (h : checkName name = .ok ()) {p : Path}
    (hp : uniquePath t base name limit = .ok p) (hne : behindSlash name.toList ≠ [])
    (hdot : behindSlash name.toList ≠ ['.']) (hdir : t.isDir p.directory = true)
    (hlegal : p.Legal) :
    claim t base name limit = .ok (t.put (t.target p) (.file []), ⟨p, t.target p⟩) := by
  obtain ⟨i, hi, rfl⟩ := (uniquePath_eq_ok_iff h).1 hp
  have hproper := isProper_candidate h hne hdot base
  have hpassed : PassedOver t base name i := fun j hj =>
    FileTree.createNew_of_exists (hproper j) (hi.below j hj)
  have hcreated := FileTree.createNew_of_not_exists (hproper i) hi.free hdir hlegal
  exact claim_of_created h hi.le hpassed hcreated

theorem searchesAgree (hanchored : t.Anchored) (h : checkName name = .ok ()) (base : Path)
    (limit : Nat) : SearchesAgree t base name limit where
  found _ := uniquePath_eq_ok_iff h
  exhausted := uniquePath_eq_noUniqueName_iff h
  claimed made c hclaim := by
    refine ⟨?_, claim_newFile hclaim⟩
    have hend := claim_end h t base limit
    rw [hclaim] at hend
    cases hend with
    | made i made loc hle hpassed hcreated =>
        exact (uniquePath_eq_ok_iff h).2
          ⟨i, leastFree_of_created hle (hpassed.exists hanchored) hcreated, rfl⟩
  searched _ := claim_of_uniquePath hanchored h
  noneLeft p n hclaim := by
    have hend := claim_end h t base limit
    rw [hclaim] at hend
    cases hend with
    | exhausted hpassed =>
        exact (uniquePath_eq_noUniqueName_iff h).2 fun j hj =>
          hpassed.exists hanchored j (by omega)
  creates _ := claim_of_legal h

/-- **The two searches agree.** Looking gives the least candidate that names nothing, and none
exactly when all of them name something. A claim gives the path that looking gives, and fails for
want of a name only where looking does; the path that looking gives is claimed, or the claim fails
in the file tree, which it does not for a legal path to a proper name in a directory that is there.
A name that leads out of the base is refused by both. -/
theorem searches_agree (t : FileTree) (hanchored : t.Anchored) (base : Path) (name : String)
    (limit : Nat) :
    match checkName name with
    | .ok () => SearchesAgree t base name limit
    | .error e => uniquePath t base name limit = .error e ∧ claim t base name limit = .error e := by
  cases h : checkName name with
  | ok u => exact searchesAgree hanchored h base limit
  | error e =>
      refine ⟨?_, ?_⟩
      · rw [uniquePath, h]
      · rw [claim, h]

/-- A tree with one directory, in which a name is taken by a file and its first number by a
directory. -/
def oneTaken : FileTree where
  entries := [(["d"], .directory), (["a", "d"], .file [1]), (["a.1", "d"], .directory)]

theorem oneTaken_anchored : oneTaken.Anchored := FileTree.anchored_of_root rfl

theorem searches_agree_oneTaken :
    oneTaken.Anchored ∧ SearchesAgree oneTaken ⟨"d"⟩ "a" 3 :=
  ⟨oneTaken_anchored, searches_agree oneTaken oneTaken_anchored ⟨"d"⟩ "a" 3⟩

/-- A name that leads out of the base is refused although all its candidates are taken. -/
theorem refused_although_taken :
    AllTaken oneTaken ⟨"d"⟩ ".." 0 ∧
      uniquePath oneTaken ⟨"d"⟩ ".." 0 ≠ .error (.noUniqueName (Path.join ⟨"d"⟩ "..") 0) := by
  refine ⟨?_, ?_⟩
  · intro i hi
    obtain rfl : i = 0 := by omega
    decide
  · decide

end MessageArchive.Archive
