import MessageArchive.Proofs.Archive.Preservation

set_option autoImplicit false

/-! # How a writer ends

A writer that is finished has stored the concatenation of its pieces, so a payload may be written in
any pieces (`runWriter_finish`). A writer that is dropped leaves the same tree without a receipt, and
one that is discarded leaves the tree in which its file was claimed. For the last it does not matter
whether the file is still there: a writer whose file is gone changes nothing any more, neither by
writing nor by being discarded (`discard_writeAll_of_gone`).
-/

namespace MessageArchive.Archive

variable {t : FileTree} {base : Path} {name : String} {limit : Nat}

/-! ## Finishing -/

/-- What is in the file and what the receipt says depends on the concatenation of the pieces. -/
theorem writeAll_flatten {made : FileTree} {w : Writer}
    (h : createUnique t base name limit = .ok (made, w)) {pieces pieces' : List Bytes}
    (hsame : pieces.flatten = pieces'.flatten) :
    (w.writeAll made pieces).1 = (w.writeAll made pieces').1 ∧
      (w.writeAll made pieces).2.finish = (w.writeAll made pieces').2.finish := by
  obtain ⟨hslot, rfl, hw⟩ := createUnique_eq_ok h
  have hnil : w.Wrote [] := hw ▸ Writer.wrote_nil w.path w.location
  obtain ⟨htree, hwrote⟩ := Writer.writeAll_put (t := t) hslot.ne_root hnil pieces
  obtain ⟨htree', hwrote'⟩ := Writer.writeAll_put (t := t) hslot.ne_root hnil pieces'
  rw [htree, htree', hwrote.finish, hwrote'.finish, Writer.writeAll_path, Writer.writeAll_path, hsame]
  exact ⟨rfl, rfl⟩

/-- **A payload may be written in any pieces.** -/
theorem runWriter_finish (base : Path) (name : String) (limit : Nat) (pieces : List Bytes)
    (t : FileTree) :
    runWriter base name limit pieces .finish t = runStore base name limit pieces.flatten t := by
  cases hcreate : createUnique t base name limit with
  | error e => simp only [runWriter, runStore, store, hcreate, Except.map]
  | ok created =>
      obtain ⟨made, w⟩ := created
      have hflatten : pieces.flatten = [pieces.flatten].flatten := by simp
      obtain ⟨htree, hreceipt⟩ := writeAll_flatten hcreate hflatten
      simp only [runWriter, runStore, store, hcreate, Except.map, htree, hreceipt]
      -- To store a payload is to write it as one piece.
      rfl

/-! ## Discarding -/

theorem runWriter_discard (base : Path) (name : String) (limit : Nat) (pieces : List Bytes)
    (t : FileTree) : (runWriter base name limit pieces .discard t).tree = t := by
  cases hcreate : createUnique t base name limit with
  | error e => simp only [runWriter, hcreate]
  | ok created =>
      obtain ⟨made, w⟩ := created
      simp only [runWriter, hcreate]
      exact discard_writeAll hcreate pieces

/-- Writing goes to a location, so a writer whose file is gone changes nothing. -/
theorem Writer.writeAll_of_gone {w : Writer} (hgone : t.node? w.location = none)
    (pieces : List Bytes) : (w.writeAll t pieces).1 = t := by
  induction pieces generalizing w with
  | nil => rfl
  | cons data rest ih =>
      have hwrite : (w.write t data).1 = t := FileTree.appendAt_free hgone data
      have hrest := @ih (w.write t data).2 hgone
      rw [← hwrite] at hrest
      exact hrest.trans hwrite

theorem Writer.discard_of_gone {w : Writer} {loc : Location} (hslot : t.FileSlot w.path loc)
    (hgone : t.node? loc = none) : w.discard t = t := by
  rw [discard, hslot.remove_free hgone]

/-- By whatever path the file was removed, the tree is again the one in which it was claimed. -/
theorem removed_eq {loc : Location} (hroot : loc ≠ []) (hfree : t.node? loc = none)
    {content : Bytes} {p : Path} {removed : FileTree}
    (h : (t.put loc (.file content)).remove p = .ok removed) (hgone : removed.node? loc = none) :
    removed = t := by
  obtain rfl := FileTree.remove_eq_ok h
  by_cases hloc : (t.put loc (.file content)).target p = loc
  · rw [hloc]
    exact FileTree.erase_put hroot hfree _
  · -- Another file was removed, so this one is still there.
    rw [FileTree.node?_erase_ne _ (Ne.symm hloc), FileTree.node?_put_self t hroot] at hgone
    cases hgone

/-- A writer that is discarded leaves the tree as it was before the file was claimed, also when the
file is removed by somebody else while it is written. -/
theorem discard_writeAll_of_gone {made removed : FileTree} {w : Writer}
    (h : createUnique t base name limit = .ok (made, w)) (before after : List Bytes) {p : Path}
    (hremove : (w.writeAll made before).1.remove p = .ok removed)
    (hgone : removed.node? w.location = none) :
    ((w.writeAll made before).2.writeAll removed after).2.discard
      ((w.writeAll made before).2.writeAll removed after).1 = t := by
  obtain ⟨hslot, rfl, hw⟩ := createUnique_eq_ok h
  have hnil : w.Wrote [] := hw ▸ Writer.wrote_nil w.path w.location
  obtain ⟨htree, -⟩ := Writer.writeAll_put (t := t) hslot.ne_root hnil before
  rw [htree] at hremove
  have hremoved : removed = t := removed_eq hslot.ne_root hslot.free hremove hgone
  rw [hremoved, Writer.writeAll_of_gone]
  · refine Writer.discard_of_gone ?_ hslot.free
    rw [Writer.writeAll_path, Writer.writeAll_path]
    exact hslot.toFileSlot
  · rw [Writer.writeAll_location]
    exact hslot.free

/-! ## All endings -/

/-- How the endings of a writer go together with storing a payload at once. -/
structure EndingsAgree (t : FileTree) (base : Path) (name : String) (limit : Nat)
    (pieces : List Bytes) : Prop where
  /-- Finishing gives the result and the tree of storing the concatenation at once. -/
  finish : runWriter base name limit pieces .finish t =
    runStore base name limit pieces.flatten t
  /-- Dropping leaves the tree that finishing leaves. -/
  drop : (runWriter base name limit pieces .drop t).tree =
    (runWriter base name limit pieces .finish t).tree
  /-- Discarding leaves the tree as it was before the file was claimed. -/
  discard : (runWriter base name limit pieces .discard t).tree = t
  /-- It does so too when the file was removed before, after any of the pieces and by any path. The
  path of the writer is one of them. -/
  gone : ∀ made w, createUnique t base name limit = .ok (made, w) →
    ∀ before after, pieces = before ++ after →
      (w.writeAll made before).1.remove w.path = .ok t ∧
        ∀ p removed, (w.writeAll made before).1.remove p = .ok removed →
          removed.node? w.location = none →
            ((w.writeAll made before).2.writeAll removed after).2.discard
              ((w.writeAll made before).2.writeAll removed after).1 = t
  /-- After a discard the same path is claimed again. -/
  again : ∀ made w, createUnique t base name limit = .ok (made, w) →
    createUnique (runWriter base name limit pieces .discard t).tree base name limit =
      .ok (made, w)

/-- **The endings of a writer agree with storing at once.** For all pieces, finishing is storing
their concatenation, dropping leaves the same tree, and discarding undoes the claim, whether the file
is still there or not; so the next claim is the same. Where nothing can be claimed, all of them fail
alike. -/
theorem endings_agree (t : FileTree) (base : Path) (name : String) (limit : Nat)
    (pieces : List Bytes) : EndingsAgree t base name limit pieces where
  finish := runWriter_finish base name limit pieces t
  drop := by
    unfold runWriter
    split
    · rfl
    · rfl
  discard := runWriter_discard base name limit pieces t
  gone made w hcreate before after _ :=
    ⟨remove_writeAll hcreate before, fun _ _ => discard_writeAll_of_gone hcreate before after⟩
  again made w hcreate := by
    rw [runWriter_discard, hcreate]

end MessageArchive.Archive
