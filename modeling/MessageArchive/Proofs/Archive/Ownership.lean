import MessageArchive.Proofs.Archive.Concurrent
import MessageArchive.Proofs.FileTree.SameDirs

set_option autoImplicit false

/-! # Archivers that share a tree share no file

An archiver owns the file it writes to, and keeps it when it has finished. The invariant
(`Consistent`) says that each of these files is new, holds what its archiver has written and belongs
to nobody else. A step touches at most one file: one that it makes, or the archiver's own. So it
leaves the files of the others as they are (`Consistent.of_step`), and the invariant holds along
every run (`Run.consistent`).
-/

namespace MessageArchive.Archive

open MessageArchive.Digest
open FileTree (FileSlot FreeSlot SameDirs)

/-- The data that an action writes. -/
def Action.data : Action → Bytes
  | .write data => data
  | _ => []

/-- The path of the file that an archiver writes to or has a receipt for. -/
def Archiver.path? : Archiver → Option Path
  | .writing w => some w.path
  | .finished receipt => some receipt.path
  | _ => none

section
variable {ι : Type} [DecidableEq ι]

/-- All that an archiver writes according to a schedule. -/
def written (i : ι) (schedule : List (ι × Action)) : Bytes :=
  schedule.flatMap fun step => if step.1 = i then step.2.data else []

theorem written_append (i : ι) (schedule later : List (ι × Action)) :
    written i (schedule ++ later) = written i schedule ++ written i later :=
  List.flatMap_append

theorem written_snoc_self (i : ι) (schedule : List (ι × Action)) (a : Action) :
    written i (schedule ++ [(i, a)]) = written i schedule ++ a.data := by
  rw [written_append]
  simp [written]

theorem written_snoc_ne {i j : ι} (h : j ≠ i) (schedule : List (ι × Action)) (a : Action) :
    written j (schedule ++ [(i, a)]) = written j schedule := by
  rw [written_append]
  simp [written, Ne.symm h]

/-! ## The invariant -/

/-- A file for the path was not there at the start, and now holds the content. -/
structure OwnFile (start tree : FileTree) (p : Path) (loc : Location) (content : Bytes) : Prop where
  slot : start.FreeSlot p loc
  file : tree.node? loc = some (.file content)

/-- What is true of an archiver that has written a content. -/
def Holds (start : FileTree) (job : Job) (tree : FileTree) (content : Bytes) : Archiver → Prop
  | .searching job' index => job' = job ∧ index ≤ job.limit ∧ content = []
  | .writing w => OwnFile start tree w.path w.location content ∧ w.Wrote content
  | .finished receipt => OwnFile start tree receipt.path (start.target receipt.path) content ∧
      receipt.bytes = content.length ∧ receipt.sha256 = hexDigest (Sha256.digest content)
  | .discarded => True
  | .failed _ => True

/-- The state of a system after a schedule. -/
structure Consistent (start : FileTree) (jobs : ι → Job) (schedule : List (ι × Action))
    (s : System ι) : Prop where
  dirs : SameDirs start s.tree
  kept : ∀ loc node, start.node? loc = some node → s.tree.node? loc = some node
  holds : ∀ i, Holds start (jobs i) s.tree (written i schedule) (s.archivers i)
  apart : ∀ i j, i ≠ j → ∀ p q, (s.archivers i).path? = some p → (s.archivers j).path? = some q →
    start.target p ≠ start.target q

variable {start : FileTree} {jobs : ι → Job} {schedule : List (ι × Action)} {s : System ι}

theorem Holds.ownFile {job : Job} {tree : FileTree} {content : Bytes} {archiver : Archiver}
    {p : Path} (h : Holds start job tree content archiver) (hp : archiver.path? = some p) :
    OwnFile start tree p (start.target p) content := by
  cases archiver with
  | writing w =>
      obtain rfl := Option.some.inj hp
      have htarget := h.1.slot.target
      rw [htarget]
      exact h.1
  | finished receipt =>
      obtain rfl := Option.some.inj hp
      exact h.1
  | searching job' index => cases hp
  | discarded => cases hp
  | failed e => cases hp

/-- What is true of an archiver stays true as long as its file is left alone. -/
theorem Holds.of_same {job : Job} {tree tree' : FileTree} {content : Bytes} {archiver : Archiver}
    (h : Holds start job tree content archiver)
    (hsame : ∀ p, archiver.path? = some p →
      tree'.node? (start.target p) = tree.node? (start.target p)) :
    Holds start job tree' content archiver := by
  cases archiver with
  | writing w =>
      have hfile := h.1.file
      rw [← h.1.slot.target, ← hsame w.path rfl, h.1.slot.target] at hfile
      exact ⟨⟨h.1.slot, hfile⟩, h.2⟩
  | finished receipt =>
      have hfile := h.1.file
      rw [← hsame receipt.path rfl] at hfile
      exact ⟨⟨h.1.slot, hfile⟩, h.2⟩
  | searching job' index => exact h
  | discarded => trivial
  | failed e => trivial

theorem Consistent.begin (start : FileTree) (jobs : ι → Job) :
    Consistent start jobs [] (System.begin start jobs) := by
  have hpath : ∀ i, (Archiver.begin (jobs i)).path? = none := by
    intro i
    rw [Archiver.begin]
    split
    · rfl
    · rfl
  refine ⟨SameDirs.refl start, fun _ _ h => h, fun i => ?_, fun i j _ p q hp => ?_⟩
  · show Holds start (jobs i) start [] (Archiver.begin (jobs i))
    rw [Archiver.begin]
    split
    · exact ⟨rfl, Nat.zero_le _, rfl⟩
    · trivial
  · have hnone := hpath i
    rw [show (Archiver.begin (jobs i)).path? = some p from hp] at hnone
    cases hnone

/-! ## One step -/

/-- A step of one archiver that leaves alone what was there at the start and the files of the
others. -/
theorem Consistent.of_step (h : Consistent start jobs schedule s) {i : ι} {a : Action}
    {tree : FileTree} {archiver : Archiver} (hdirs : SameDirs s.tree tree)
    (hstart : ∀ loc, start.node? loc ≠ none → tree.node? loc = s.tree.node? loc)
    (hothers : ∀ j, j ≠ i → ∀ q, (s.archivers j).path? = some q →
      tree.node? (start.target q) = s.tree.node? (start.target q))
    (hholds : Holds start (jobs i) tree (written i schedule ++ a.data) archiver)
    (hapart : ∀ p, archiver.path? = some p → ∀ j, j ≠ i → ∀ q, (s.archivers j).path? = some q →
      start.target p ≠ start.target q) :
    Consistent start jobs (schedule ++ [(i, a)])
      ⟨tree, Function.update s.archivers i archiver⟩ := by
  refine ⟨h.dirs.trans hdirs, fun loc node hnode => ?_, fun j => ?_, fun j k hjk p q hp hq => ?_⟩
  · rw [hstart loc (by simp [hnode]), h.kept loc node hnode]
  · by_cases hj : j = i
    · subst hj
      simp only [Function.update_self, written_snoc_self]
      exact hholds
    · simp only [Function.update_of_ne hj, written_snoc_ne hj]
      exact (h.holds j).of_same (hothers j hj)
  · by_cases hj : j = i
    · subst hj
      simp only [Function.update_self] at hp
      simp only [Function.update_of_ne (Ne.symm hjk)] at hq
      exact hapart p hp k (Ne.symm hjk) q hq
    · simp only [Function.update_of_ne hj] at hp
      by_cases hk : k = i
      · subst hk
        simp only [Function.update_self] at hq
        exact (hapart q hq j hj p hp).symm
      · simp only [Function.update_of_ne hk] at hq
        exact h.apart j k hjk p q hp hq

/-- A step that leaves the tree as it is, of an archiver that owns no file afterwards. -/
theorem Consistent.of_search (h : Consistent start jobs schedule s) {i : ι} {a : Action}
    {archiver : Archiver} (hpath : archiver.path? = none)
    (hholds : Holds start (jobs i) s.tree (written i schedule ++ a.data) archiver) :
    Consistent start jobs (schedule ++ [(i, a)])
      ⟨s.tree, Function.update s.archivers i archiver⟩ := by
  refine h.of_step (SameDirs.refl _) (fun _ _ => rfl) (fun _ _ _ _ => rfl) hholds ?_
  intro p hp
  rw [hpath] at hp
  cases hp

/-- A step that changes the tree at one location only, where there was nothing at the start and
none of the others has its file. -/
theorem Consistent.of_change (h : Consistent start jobs schedule s) {i : ι} {a : Action}
    {tree : FileTree} {archiver : Archiver} {loc : Location} (hdirs : SameDirs s.tree tree)
    (hnew : start.node? loc = none) (hsame : ∀ l, l ≠ loc → tree.node? l = s.tree.node? l)
    (hothers : ∀ j, j ≠ i → ∀ q, (s.archivers j).path? = some q → start.target q ≠ loc)
    (hholds : Holds start (jobs i) tree (written i schedule ++ a.data) archiver)
    (hpath : ∀ p, archiver.path? = some p → start.target p = loc) :
    Consistent start jobs (schedule ++ [(i, a)])
      ⟨tree, Function.update s.archivers i archiver⟩ := by
  refine h.of_step hdirs (fun l hl => ?_) (fun j hj q hq => ?_) hholds (fun p hp j hj q hq => ?_)
  · refine hsame l ?_
    rintro rfl
    exact hl hnew
  · exact hsame _ (hothers j hj q hq)
  · rw [hpath p hp]
    exact (hothers j hj q hq).symm

/-! ### The file of a writer -/

theorem Consistent.writer (h : Consistent start jobs schedule s) {i : ι} {w : Writer}
    (hw : s.archivers i = .writing w) :
    OwnFile start s.tree w.path w.location (written i schedule) ∧
      w.Wrote (written i schedule) := by
  have hholds := h.holds i
  rw [hw] at hholds
  exact hholds

theorem Consistent.writer_apart (h : Consistent start jobs schedule s) {i : ι} {w : Writer}
    (hw : s.archivers i = .writing w) :
    ∀ j, j ≠ i → ∀ q, (s.archivers j).path? = some q → start.target q ≠ w.location := by
  intro j hj q hq
  have hpath : (s.archivers i).path? = some w.path := by
    rw [hw]
    rfl
  rw [← (h.writer hw).1.slot.target]
  exact h.apart j i hj q w.path hq hpath

theorem OwnFile.not_dir {tree : FileTree} {p : Path} {loc : Location} {content : Bytes}
    (h : OwnFile start tree p loc content) : tree.node? loc ≠ some .directory := by
  rw [h.file]
  simp

theorem Consistent.discard (h : Consistent start jobs schedule s) {i : ι} {w : Writer}
    (hw : s.archivers i = .writing w) : w.discard s.tree = s.tree.erase w.location := by
  obtain ⟨hown, -⟩ := h.writer hw
  rw [Writer.discard, (h.dirs.fileSlot hown.slot.toFileSlot).remove hown.file]

/-! ### All steps -/

/-- A file that is made is new: nothing was there at the start, and none of the others has it. -/
theorem Consistent.created (h : Consistent start jobs schedule s) {p : Path} {loc : Location}
    (hslot : s.tree.FreeSlot p loc) :
    start.FreeSlot p loc ∧ ∀ j q, (s.archivers j).path? = some q → start.target q ≠ loc := by
  refine ⟨⟨h.dirs.symm.fileSlot hslot.toFileSlot, ?_⟩, ?_⟩
  · cases hnode : start.node? loc with
    | none => rfl
    | some node =>
        have hkept := h.kept loc node hnode
        rw [hslot.free] at hkept
        cases hkept
  · rintro j q hq rfl
    have hfile := ((h.holds j).ownFile hq).file
    rw [hslot.free] at hfile
    cases hfile

/-- **One step keeps the invariant.** -/
theorem Consistent.step (h : Consistent start jobs schedule s) {i : ι} {a : Action}
    {s' : System ι} (hstep : System.Step s i a s') :
    Consistent start jobs (schedule ++ [(i, a)]) s' := by
  obtain ⟨hstep⟩ := hstep
  have hholds := h.holds i
  generalize hbefore : s.archivers i = before at hstep hholds
  cases hstep with
  | @created made job index loc hmade =>
      obtain ⟨hslot, rfl⟩ := FileTree.createNew_eq_ok_iff.1 hmade
      obtain ⟨rfl, -, hnil⟩ := hholds
      obtain ⟨hnew, hothers⟩ := h.created hslot
      refine h.of_change (FileTree.sameDirs_put_file hslot.ne_root (by simp [hslot.free]) _)
        hnew.free (fun l hl => FileTree.node?_put_ne _ hl _) (fun j _ => hothers j) ?_ ?_
      · rw [hnil]
        exact ⟨⟨hnew, FileTree.node?_put_self _ hslot.ne_root _⟩, Writer.wrote_nil _ _⟩
      · intro p hp
        obtain rfl := Option.some.inj hp
        exact hnew.target
  | passed htaken hmore =>
      obtain ⟨rfl, -, hnil⟩ := hholds
      exact h.of_search rfl ⟨rfl, hmore, by rw [hnil]; rfl⟩
  | exhausted htaken hlast => exact h.of_search rfl trivial
  | refused hrefused hother => exact h.of_search rfl trivial
  | wrote w data =>
      obtain ⟨hown, hwrote⟩ := h.writer hbefore
      have htree : (w.write s.tree data).1 =
          s.tree.put w.location (.file (written i schedule ++ data)) :=
        FileTree.appendAt_of_file hown.file data
      rw [htree]
      refine h.of_change (FileTree.sameDirs_put_file hown.slot.ne_root hown.not_dir _)
        hown.slot.free (fun l hl => FileTree.node?_put_ne _ hl _) (h.writer_apart hbefore) ?_ ?_
      · exact ⟨⟨hown.slot, FileTree.node?_put_self _ hown.slot.ne_root _⟩,
          hwrote.write s.tree data⟩
      · intro p hp
        obtain rfl := Option.some.inj hp
        exact hown.slot.target
  | finished w =>
      obtain ⟨hown, hwrote⟩ := h.writer hbefore
      rw [hwrote.finish]
      refine h.of_change (SameDirs.refl _) hown.slot.free (fun _ _ => rfl)
        (h.writer_apart hbefore) ?_ ?_
      · show Holds start (jobs i) s.tree (written i schedule ++ []) _
        rw [List.append_nil]
        refine ⟨?_, rfl, rfl⟩
        show OwnFile start s.tree w.path (start.target w.path) _
        rw [hown.slot.target]
        exact hown
      · intro p hp
        obtain rfl := Option.some.inj hp
        exact hown.slot.target
  | discarded w =>
      obtain ⟨hown, -⟩ := h.writer hbefore
      rw [h.discard hbefore]
      refine h.of_change (FileTree.sameDirs_erase hown.slot.ne_root hown.not_dir)
        hown.slot.free (fun l hl => FileTree.node?_erase_ne _ hl) (h.writer_apart hbefore)
        trivial ?_
      intro p hp
      cases hp

/-- **The invariant holds along every run.** -/
theorem System.Run.consistent {schedule : List (ι × Action)} {s : System ι}
    (h : System.Run (System.begin start jobs) schedule s) : Consistent start jobs schedule s := by
  induction h with
  | nil => exact Consistent.begin start jobs
  | snoc _ hstep ih => exact ih.step hstep

/-! ## Receipts -/

/-- An archiver that has finished does nothing any more. -/
theorem System.Run.finished {receipt : Receipt} {i : ι} {s s' : System ι}
    {later : List (ι × Action)} (h : System.Run s later s')
    (hfinished : s.archivers i = .finished receipt) :
    s'.archivers i = .finished receipt ∧ written i later = [] := by
  induction h with
  | nil => exact ⟨hfinished, rfl⟩
  | @snoc later s' s'' j a _ hstep ih =>
      obtain ⟨hstill, hnothing⟩ := ih
      obtain ⟨hstep⟩ := hstep
      have hne : i ≠ j := by
        rintro rfl
        rw [hstill] at hstep
        cases hstep
      refine ⟨?_, ?_⟩
      · show Function.update s'.archivers j _ i = _
        rw [Function.update_of_ne hne, hstill]
      · rw [written_snoc_ne hne, hnothing]

end

end MessageArchive.Archive
