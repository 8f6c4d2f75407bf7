import MessageArchive.Archive.Archiver
import MessageArchive.Proofs.Archive.Writing
import MessageArchive.Proofs.FileTree.Ancestors

set_option autoImplicit false

/-! # Archiving is all or nothing

Archiving first sees to the archive directory, which may add directories on the way to it, and then
stores the payload in one step that fails without a trace (`write_spec`). So a tree in which
archiving failed has the files it had, and one in which it succeeded has exactly one more
(`archive_all_or_nothing`).
-/

namespace MessageArchive.Archive

open MessageArchive.Digest
open MessageArchive.FileTree (AddsDirs Keeps)

/-! ## The archive directory -/

/-- What is new lies on the way to the directory, or is the directory itself. -/
theorem ensureDir_adds (t : FileTree) (dir : Path) :
    AddsDirs (t.LeadsTo dir) t (ensureDir t dir).2 := by
  have hmake : AddsDirs (t.LeadsTo dir) t (t.makeDirs dir).2 := by
    refine (FileTree.makeDirs_adds t dir).mono ?_
    rintro l ⟨q, hq, rfl⟩
    exact FileTree.ancestors_leadsTo hq
  unfold ensureDir
  split
  · exact .refl _ t
  · split
    next made hmade =>
      rw [hmade] at hmake
      exact hmake
    next cause tried htried =>
      rw [htried] at hmake
      exact hmake

theorem ensureDir_isDir {t made : FileTree} {dir : Path} (hne : dir.text.isEmpty = false)
    (h : ensureDir t dir = (.ok (), made)) : made.isDir dir = true := by
  unfold ensureDir at h
  split at h
  next hdir =>
    obtain rfl : t = made := by simpa using h
    exact hdir
  · split at h
    next made' hmade =>
      obtain rfl : made' = made := by simpa using h
      exact FileTree.makeDirs_isDir hne hmade
    · cases h

/-! ## The work between the entries -/

variable (s : Settings) (context : Context) (payload : Bytes) (now : Calendar.Moment)

/-- In a tree that is ready, either the payload is stored or nothing is done. -/
theorem storeNamed_spec (ready : FileTree) :
    match (storeNamed s context payload now ready).1.result with
    | .ok receipt => Stored ready (storeNamed s context payload now ready).2 payload receipt
    | .error _ => (storeNamed s context payload now ready).2 = ready := by
  unfold storeNamed
  dsimp only
  cases (resolveName s context now).result with
  | error e => rfl
  | ok name =>
      dsimp only
      cases hstore : store ready s.baseDir name s.maxUniqueAttempts payload with
      | error e => rfl
      | ok done =>
          obtain ⟨stored, receipt⟩ := done
          exact store_eq_ok hstore

/-- Directories may be made, whatever comes of it; then the payload is stored or nothing is
done. -/
theorem write_spec (t : FileTree) :
    ∃ ready, AddsDirs (t.LeadsTo s.baseDir) t ready ∧
      match (write s context payload now t).1.result with
      | .ok receipt => Stored ready (write s context payload now t).2 payload receipt ∧
          (s.baseDir.text.isEmpty = false → ready.isDir s.baseDir = true)
      | .error _ => (write s context payload now t).2 = ready := by
  refine ⟨(ensureDir t s.baseDir).2, ensureDir_adds t s.baseDir, ?_⟩
  unfold write
  cases hensure : ensureDir t s.baseDir with
  | mk made ready =>
      cases made with
      | error e => rfl
      | ok u =>
          have hspec := storeNamed_spec s context payload now ready
          dsimp only
          revert hspec
          cases (storeNamed s context payload now ready).1.result with
          | error e => exact id
          | ok receipt =>
              intro hstored
              exact ⟨hstored, fun hne => ensureDir_isDir hne hensure⟩

/-! ## The whole work -/

/-- Archiving is the work between the entries, as far as the tree and the outcome go. -/
theorem archive_spec (t : FileTree) :
    ∃ ready, AddsDirs (t.LeadsTo s.baseDir) t ready ∧
      match (archive s context payload now t).1.result with
      | .ok receipt => Stored ready (archive s context payload now t).2 payload receipt ∧
          (s.baseDir.text.isEmpty = false → ready.isDir s.baseDir = true)
      | .error _ => (archive s context payload now t).2 = ready :=
  write_spec s context payload now t

theorem archive_keeps (t : FileTree) : Keeps [] t (archive s context payload now t).2 := by
  obtain ⟨ready, hadds, hspec⟩ := archive_spec s context payload now t
  revert hspec
  cases (archive s context payload now t).1.result with
  | error e =>
      intro hsame
      dsimp only at hsame
      rw [hsame]
      exact hadds.keeps
  | ok receipt =>
      intro hstored
      exact hadds.keeps.trans hstored.1.keeps

theorem archive_newFile {t : FileTree} {receipt : Receipt}
    (h : (archive s context payload now t).1.result = .ok receipt) :
    NewFile t (archive s context payload now t).2 receipt.path payload := by
  obtain ⟨ready, hadds, hspec⟩ := archive_spec s context payload now t
  rw [h] at hspec
  exact hspec.1.newFile.of_keeps hadds.keeps

/-- The payload is in a file that is new, and nothing else is new but directories on the way to the
archive directory. -/
structure Archived (t after : FileTree) (receipt : Receipt) : Prop where
  newFile : NewFile t after receipt.path payload
  content : after.contentOf receipt.path = .ok payload
  bytes : receipt.bytes = payload.length
  sha256 : receipt.sha256 = hexDigest (Sha256.digest payload)
  workingDir : after.workingDir = t.workingDir
  directory : s.baseDir.text.isEmpty = false → after.isDir s.baseDir = true
  others : ∀ l, l ≠ t.target receipt.path → after.node? l = t.node? l ∨
    t.node? l = none ∧ after.node? l = some .directory ∧ t.LeadsTo s.baseDir l

/-- What is stored after directories have been made is new in the tree from before, too. -/
theorem archived_of_stored {t ready after : FileTree} {receipt : Receipt}
    (hadds : AddsDirs (t.LeadsTo s.baseDir) t ready) (h : Stored ready after payload receipt)
    (hdir : s.baseDir.text.isEmpty = false → ready.isDir s.baseDir = true) :
    Archived s payload t after receipt := by
  have hnew : NewFile t after receipt.path payload := h.newFile.of_keeps hadds.keeps
  have htree := h.tree
  rw [hadds.keeps.target] at htree
  refine ⟨hnew, hnew.content (Keeps.refl [] after) List.not_mem_nil, h.bytes, h.sha256, ?_,
    fun hne => h.keeps.isDir (hdir hne), ?_⟩
  · rw [h.keeps.workingDir, hadds.workingDir]
  · intro l hl
    rw [htree, FileTree.node?_put_ne ready hl]
    exact hadds.node l

/-- **Main theorem.** Archiving either makes exactly one file, with the payload in it, or no file at
all. In both cases the files from before are untouched, and what else is new are directories on the
way to the archive directory. -/
theorem archive_all_or_nothing (t : FileTree) :
    match (archive s context payload now t).1.result with
    | .ok receipt => Archived s payload t (archive s context payload now t).2 receipt
    | .error _ => AddsDirs (t.LeadsTo s.baseDir) t (archive s context payload now t).2 := by
  obtain ⟨ready, hadds, hspec⟩ := archive_spec s context payload now t
  revert hspec
  cases (archive s context payload now t).1.result with
  | error e =>
      intro hsame
      dsimp only at hsame ⊢
      rw [hsame]
      exact hadds
  | ok receipt =>
      intro hstored
      exact archived_of_stored s payload hadds hstored.1 hstored.2

end MessageArchive.Archive
