import MessageArchive.Archive.Writer
import MessageArchive.Proofs.FileTree.Keeping

set_option autoImplicit false

/-! # Claims, writers and receipts

A claim makes an empty file at a slot that was free (`claim_eq_ok`). What a writer knows of its file
follows the content of the file piece by piece (`Writer.Wrote`, `Writer.writeAll_put`), so the
receipt it finishes with tells the length and the digest of what is in the file (`Stored`).
-/

namespace MessageArchive.Archive

open MessageArchive.Digest

variable {t : FileTree} {base : Path} {name : String} {limit : Nat}

/-! ## Claims -/

theorem claimFrom_eq_ok {more index : Nat} {made : FileTree} {c : Claim}
    (h : claimFrom t base name limit more index = .ok (made, c)) :
    t.FreeSlot c.path c.location ∧ made = t.put c.location (.file []) ∧
      ∃ i, i < index + more ∧ c.path = candidate base name i := by
  -- A candidate that exists is passed over without a change, so the tree is the same throughout.
  induction more generalizing index with
  | zero =>
      unfold claimFrom at h
      cases h
  | succ more ih =>
      unfold claimFrom at h
      split at h
      next made' loc hcreate =>
        obtain ⟨hslot, hmade⟩ := FileTree.createNew_eq_ok_iff.1 hcreate
        simp only [Except.ok.injEq, Prod.mk.injEq] at h
        obtain ⟨rfl, rfl⟩ := h
        exact ⟨hslot, hmade, index, by omega, rfl⟩
      · obtain ⟨hslot, hmade, i, hi, hpath⟩ := ih h
        exact ⟨hslot, hmade, i, by omega, hpath⟩
      · exact absurd h (by simp)

theorem claim_eq_ok {made : FileTree} {c : Claim} (h : claim t base name limit = .ok (made, c)) :
    t.FreeSlot c.path c.location ∧ made = t.put c.location (.file []) ∧
      ∃ i, i ≤ limit ∧ c.path = candidate base name i := by
  rw [claim] at h
  split at h
  · exact absurd h (by simp)
  · obtain ⟨hslot, hmade, i, hi, hpath⟩ := claimFrom_eq_ok h
    exact ⟨hslot, hmade, i, by omega, hpath⟩

theorem createUnique_eq_ok {made : FileTree} {w : Writer}
    (h : createUnique t base name limit = .ok (made, w)) :
    t.FreeSlot w.path w.location ∧ made = t.put w.location (.file []) ∧
      w = { path := w.path, location := w.location } := by
  rw [createUnique] at h
  cases hclaim : claim t base name limit with
  | error e =>
      rw [hclaim] at h
      exact absurd h (by simp [Except.map])
  | ok claimed =>
      obtain ⟨made', c⟩ := claimed
      obtain ⟨hslot, hmade, -⟩ := claim_eq_ok hclaim
      rw [hclaim] at h
      simp only [Except.map, Except.ok.injEq, Prod.mk.injEq] at h
      obtain ⟨rfl, rfl⟩ := h
      exact ⟨hslot, hmade, rfl⟩

/-! ## Writers -/

namespace Writer

/-- The count and the digest of the writer are those of the content. -/
structure Wrote (w : Writer) (content : Bytes) : Prop where
  hasher : w.hasher = Sha256.Hasher.empty.update content
  written : w.written = content.length

theorem wrote_nil (path : Path) (location : Location) :
    Wrote { path := path, location := location } [] := by
  refine ⟨?_, rfl⟩
  show Sha256.Hasher.empty = Sha256.Hasher.empty.update []
  have habsorb : Sha256.absorb Sha256.initial [] = (Sha256.initial, []) :=
    Sha256.absorb_of_length_lt (by simp)
  simp only [Sha256.Hasher.update, Sha256.Hasher.empty, List.append_nil, habsorb, List.length_nil]

theorem Wrote.write {w : Writer} {content : Bytes} (h : w.Wrote content) (tree : FileTree)
    (data : Bytes) : (w.write tree data).2.Wrote (content ++ data) := by
  refine ⟨?_, ?_⟩
  · show w.hasher.update data = _
    rw [h.hasher, Sha256.Hasher.update_append]
  · show w.written + data.length = _
    rw [h.written, List.length_append]

theorem Wrote.finish {w : Writer} {content : Bytes} (h : w.Wrote content) :
    w.finish = ⟨w.path, content.length, hexDigest (Sha256.digest content)⟩ := by
  rw [Writer.finish, h.hasher, h.written, Sha256.Hasher.finish_update_empty]

theorem write_put {w : Writer} (hroot : w.location ≠ []) (content data : Bytes) :
    (w.write (t.put w.location (.file content)) data).1 =
      t.put w.location (.file (content ++ data)) := by
  show (t.put w.location (.file content)).appendAt w.location data = _
  rw [FileTree.appendAt_of_file (FileTree.node?_put_self t hroot _), FileTree.put_put]

/-- A writer stays at its path. -/
theorem writeAll_path (w : Writer) (t : FileTree) (pieces : List Bytes) :
    (w.writeAll t pieces).2.path = w.path := by
  induction pieces generalizing w t with
  | nil => rfl
  | cons data rest ih => exact ih (w.write t data).2 (w.write t data).1

/-- A writer stays at its file. -/
theorem writeAll_location (w : Writer) (t : FileTree) (pieces : List Bytes) :
    (w.writeAll t pieces).2.location = w.location := by
  induction pieces generalizing w t with
  | nil => rfl
  | cons data rest ih => exact ih (w.write t data).2 (w.write t data).1

/-- Pieces written one after the other are in the file one after the other, and the writer knows
of all of them. -/
theorem writeAll_put {w : Writer} (hroot : w.location ≠ []) {content : Bytes}
    (h : w.Wrote content) (pieces : List Bytes) :
    (w.writeAll (t.put w.location (.file content)) pieces).1 =
        t.put w.location (.file (content ++ pieces.flatten)) ∧
      (w.writeAll (t.put w.location (.file content)) pieces).2.Wrote
        (content ++ pieces.flatten) := by
  induction pieces generalizing w content with
  | nil => simpa [writeAll] using h
  | cons data rest ih =>
      have hnext := h.write (t.put w.location (.file content)) data
      have hput := write_put (t := t) hroot content data
      -- The writer stays at its file, so the rest of the pieces goes there too.
      have hrest := @ih (w.write (t.put w.location (.file content)) data).2 hroot
        (content ++ data) hnext
      show ((w.write (t.put w.location (.file content)) data).2.writeAll
          (w.write (t.put w.location (.file content)) data).1 rest).1 = _ ∧
        ((w.write (t.put w.location (.file content)) data).2.writeAll
          (w.write (t.put w.location (.file content)) data).1 rest).2.Wrote _
      rw [hput, List.flatten_cons, ← List.append_assoc]
      exact hrest

end Writer

/-! ## Receipts -/

/-- The payload is in a file where there was nothing, and the receipt tells of it. -/
structure Stored (t stored : FileTree) (payload : Bytes) (r : Receipt) : Prop where
  slot : t.FreeSlot r.path (t.target r.path)
  tree : stored = t.put (t.target r.path) (.file payload)
  bytes : r.bytes = payload.length
  sha256 : r.sha256 = hexDigest (Sha256.digest payload)

/-- A receipt that has been given out, and the payload it was given for. -/
structure Issued where
  receipt : Receipt
  payload : Bytes
  deriving DecidableEq, Repr

/-- The path named nothing, and now it names a file that is new and holds the payload. -/
structure NewFile (t after : FileTree) (p : Path) (payload : Bytes) : Prop where
  unnamed : t.pathExists p = false
  vacant : t.node? (t.target p) = none
  located : after.locate p = .ok (t.target p)
  file : after.node? (t.target p) = some (.file payload)

namespace NewFile

variable {ready after later : FileTree} {grown : List Location} {p : Path} {payload : Bytes}

/-- What is new in a tree is new in one that it has grown from. -/
theorem of_keeps (hkeeps : FileTree.Keeps grown t ready) (h : NewFile ready after p payload) :
    NewFile t after p payload := by
  have htarget := hkeeps.target p
  obtain ⟨hunnamed, hvacant, hlocated, hfile⟩ := h
  rw [htarget] at hvacant hlocated hfile
  exact ⟨hkeeps.not_exists hunnamed, hkeeps.free hvacant, hlocated, hfile⟩

/-- The payload is read as long as nothing is lost. -/
theorem content (h : NewFile t after p payload) (hkeeps : FileTree.Keeps grown after later)
    (hgrown : t.target p ∉ grown) : later.contentOf p = .ok payload := by
  obtain ⟨more, hfile, hmore⟩ := hkeeps.files _ _ h.file
  rw [hmore hgrown, List.append_nil] at hfile
  exact FileTree.contentOf_of_locate (hkeeps.locate h.located) hfile

end NewFile

namespace Stored

variable {stored : FileTree} {payload : Bytes} {r : Receipt}

theorem keeps (h : Stored t stored payload r) : FileTree.Keeps [] t stored := by
  rw [h.tree]
  exact FileTree.keeps_put h.slot.free _

theorem newFile (h : Stored t stored payload r) : NewFile t stored r.path payload := by
  have hfile : stored.node? (t.target r.path) = some (.file payload) := by
    rw [h.tree]
    exact FileTree.node?_put_self t h.slot.ne_root _
  have hlocate := (h.slot.toFileSlot.of_keeps h.keeps).locate hfile
  exact ⟨h.slot.not_exists h.slot.free, h.slot.free, hlocate, hfile⟩

end Stored

/-- A writer that is finished after some pieces has stored their concatenation. -/
theorem stored_of_writeAll {made : FileTree} {w : Writer}
    (h : createUnique t base name limit = .ok (made, w)) (pieces : List Bytes) :
    Stored t (w.writeAll made pieces).1 pieces.flatten (w.writeAll made pieces).2.finish := by
  obtain ⟨hslot, rfl, hw⟩ := createUnique_eq_ok h
  have hnil : w.Wrote [] := hw ▸ Writer.wrote_nil w.path w.location
  obtain ⟨htree, hwrote⟩ := Writer.writeAll_put (t := t) hslot.ne_root hnil pieces
  rw [htree, hwrote.finish, Writer.writeAll_path, List.nil_append]
  have htarget := hslot.target
  refine ⟨?_, ?_, rfl, rfl⟩
  · show t.FreeSlot w.path (t.target w.path)
    rw [htarget]
    exact hslot
  · show _ = t.put (t.target w.path) _
    rw [htarget]

theorem store_eq_ok {payload : Bytes} {stored : FileTree} {r : Receipt}
    (h : store t base name limit payload = .ok (stored, r)) : Stored t stored payload r := by
  rw [store] at h
  cases hcreate : createUnique t base name limit with
  | error e =>
      rw [hcreate] at h
      exact absurd h (by simp [Except.map])
  | ok created =>
      obtain ⟨made, w⟩ := created
      rw [hcreate] at h
      simp only [Except.map, Except.ok.injEq, Prod.mk.injEq] at h
      obtain ⟨rfl, rfl⟩ := h
      -- One piece is a list of pieces.
      simpa [Writer.writeAll] using stored_of_writeAll hcreate [payload]

/-- The file of a writer can be removed by its path at any time, and then the tree is as it was before
the file was claimed. -/
theorem remove_writeAll {made : FileTree} {w : Writer}
    (h : createUnique t base name limit = .ok (made, w)) (pieces : List Bytes) :
    (w.writeAll made pieces).1.remove w.path = .ok t := by
  obtain ⟨hslot, rfl, hw⟩ := createUnique_eq_ok h
  have hnil : w.Wrote [] := hw ▸ Writer.wrote_nil w.path w.location
  obtain ⟨htree, -⟩ := Writer.writeAll_put (t := t) hslot.ne_root hnil pieces
  have hkeeps := FileTree.keeps_put hslot.free (.file ([] ++ pieces.flatten))
  rw [htree, (hslot.toFileSlot.of_keeps hkeeps).remove (FileTree.node?_put_self t hslot.ne_root _),
    FileTree.erase_put hslot.ne_root hslot.free]

/-- A writer that is discarded leaves the tree as it was before the file was claimed. -/
theorem discard_writeAll {made : FileTree} {w : Writer}
    (h : createUnique t base name limit = .ok (made, w)) (pieces : List Bytes) :
    (w.writeAll made pieces).2.discard (w.writeAll made pieces).1 = t := by
  rw [Writer.discard, Writer.writeAll_path, remove_writeAll h pieces]

end MessageArchive.Archive
