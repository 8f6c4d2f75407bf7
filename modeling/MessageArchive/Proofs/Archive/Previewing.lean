import MessageArchive.Proofs.Archive.AllOrNothing
import MessageArchive.Proofs.Archive.Searching
import MessageArchive.Proofs.Template.Clock

set_option autoImplicit false

/-! # Previews come true

What a payload is archived under is told beforehand by the name that is resolved and by the preview
of the path. Both look for a free candidate, while archiving claims one.

In a directory that is there the two searches agree without a look at the working directory: no part
of a name is `..`, so a candidate that is said to exist already is named by its path
(`exists_of_taken`), and what is claimed is what looking gives (`uniquePath_of_claim`). So archiving
has a name and a path that could be told before (`foretold_of_archive`).
-/

namespace MessageArchive.Archive

variable {t : FileTree} {base : Path} {name : String} {limit : Nat}

/-! ## The searches in a directory that is there -/

theorem exists_of_taken (hbase : t.isDir base = true) (h : checkName name = .ok ()) {index : Nat}
    (htaken : t.createNew (candidate base name index) = .error .alreadyExists) :
    t.pathExists (candidate base name index) = true := by
  have hnumbered := checkName_eq_ok_iff.1 (checkName_numbered h index)
  refine FileTree.pathExists_of_taken (fun hslot => ?_) htaken
  exact FileTree.pathExists_of_slot_eq_none_below hbase (parts_candidate h base index)
    (Path.isAbsolute_join hnumbered.1 base) hnumbered.2 hslot

/-- Nothing is claimed for a name that is refused. -/
theorem checkName_of_claim {made : FileTree} {c : Claim}
    (h : claim t base name limit = .ok (made, c)) : checkName name = .ok () := by
  rw [claim] at h
  split at h
  · cases h
  · assumption

/-- The path that is claimed is the one that looking gives. -/
theorem uniquePath_of_claim (hbase : t.isDir base = true) {made : FileTree} {c : Claim}
    (hclaim : claim t base name limit = .ok (made, c)) :
    uniquePath t base name limit = .ok c.path ∧
      ∃ i, i ≤ limit ∧ c.path = candidate base name i := by
  have h : checkName name = .ok () := checkName_of_claim hclaim
  have hend := claim_end h t base limit
  rw [hclaim] at hend
  cases hend with
  | made i made loc hle hpassed hcreated =>
      have hbelow : ∀ j < i, t.pathExists (candidate base name j) = true :=
        fun j hj => exists_of_taken hbase h (hpassed j hj)
      exact ⟨(uniquePath_eq_ok_iff h).2 ⟨i, leastFree_of_created hle hbelow hcreated, rfl⟩,
        i, hle, rfl⟩

theorem claim_of_store {payload : Bytes} {stored : FileTree} {r : Receipt}
    (h : store t base name limit payload = .ok (stored, r)) :
    ∃ made c, claim t base name limit = .ok (made, c) ∧ c.path = r.path := by
  rw [store, createUnique] at h
  cases hclaim : claim t base name limit with
  | error e =>
      rw [hclaim] at h
      cases h
  | ok claimed =>
      obtain ⟨made, c⟩ := claimed
      rw [hclaim] at h
      cases h
      exact ⟨made, c, rfl, rfl⟩

/-! ## Archiving in a directory that is there -/

variable {s : Settings} {context : Context} {payload : Bytes} {now now' : Calendar.Moment}

/-- Archiving that succeeds has resolved a name and has stored the payload under it once the directory
was ready. -/
theorem archive_eq_ok {receipt : Receipt}
    (h : (archive s context payload now t).1.result = .ok receipt) :
    ∃ name, (resolveName s context now).result = .ok name ∧
      store (ensureDir t s.baseDir).2 s.baseDir name s.maxUniqueAttempts payload =
        .ok ((archive s context payload now t).2, receipt) := by
  have htree : (archive s context payload now t).2 = (write s context payload now t).2 := rfl
  have hwrite : (write s context payload now t).1.result = .ok receipt := h
  rw [htree]
  unfold write at hwrite ⊢
  cases hensure : ensureDir t s.baseDir with
  | mk made ready =>
      cases made with
      | error e =>
          rw [hensure] at hwrite
          cases hwrite
      | ok u =>
          simp only [hensure, storeNamed] at hwrite ⊢
          cases hname : (resolveName s context now).result with
          | error e => simp [hname] at hwrite
          | ok name =>
              cases hstore : store ready s.baseDir name s.maxUniqueAttempts payload with
              | error e => simp [hname, hstore] at hwrite
              | ok done =>
                  obtain ⟨stored, r⟩ := done
                  obtain rfl : r = receipt := by simpa [hname, hstore] using hwrite
                  exact ⟨name, rfl, by simp [hstore]⟩

/-- In a directory that is there already, the payload is stored in the tree as it was. -/
theorem store_of_archive {receipt : Receipt} (hdir : t.isDir s.baseDir = true)
    (h : (archive s context payload now t).1.result = .ok receipt) :
    ∃ name stored, (resolveName s context now).result = .ok name ∧
      store t s.baseDir name s.maxUniqueAttempts payload = .ok (stored, receipt) := by
  have hready : (ensureDir t s.baseDir).2 = t := by rw [ensureDir, if_pos hdir]
  obtain ⟨name, hname, hstore⟩ := archive_eq_ok h
  rw [hready] at hstore
  exact ⟨name, _, hname, hstore⟩

/-- The name that was resolved leads to the path on the receipt, by looking as well as by a number up
to the limit. -/
structure Foretold (t : FileTree) (s : Settings) (name : String) (p : Path) : Prop where
  looked : uniquePath t s.baseDir name s.maxUniqueAttempts = .ok p
  numbered : ∃ i, i ≤ s.maxUniqueAttempts ∧ p = candidate s.baseDir name i

theorem foretold_of_archive {receipt : Receipt} (hdir : t.isDir s.baseDir = true)
    (h : (archive s context payload now t).1.result = .ok receipt) :
    ∃ name, (resolveName s context now).result = .ok name ∧ Foretold t s name receipt.path := by
  obtain ⟨name, stored, hname, hstore⟩ := store_of_archive hdir h
  obtain ⟨made, c, hclaim, hpath⟩ := claim_of_store hstore
  obtain ⟨hlooked, hnumbered⟩ := uniquePath_of_claim hdir hclaim
  rw [hpath] at hlooked hnumbered
  exact ⟨name, hname, hlooked, hnumbered⟩

theorem previewPath_of_foretold {p : Path} (hname : (resolveName s context now).result = .ok name)
    (h : Foretold t s name p) : (previewPath s context now t).result = .ok p := by
  rw [previewPath, Audit.Traced.bind_of_ok _ hname, h.looked]
  rfl

/-- The moments are the same, or the name is the same at both. -/
def SameName (s : Settings) (context : Context) (now now' : Calendar.Moment) : Prop :=
  now = now' ∨ Template.IgnoresClock s.missingProperty context s.template

theorem SameName.resolveName (h : SameName s context now now') :
    (resolveName s context now').result = (resolveName s context now).result := by
  rcases h with rfl | h
  · rfl
  · exact h now' now

end MessageArchive.Archive
