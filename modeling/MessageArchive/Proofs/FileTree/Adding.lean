import MessageArchive.Proofs.FileTree.Keeping

set_option autoImplicit false

/-! # What operations add

`Adds` says of two trees that all of the first is in the second as it was, and of what is new that it
has a given property. Unlike `Keeps` it leaves nothing open: where it holds of a run, the run has
made nothing that the property does not tell of.
-/

namespace MessageArchive.FileTree

variable {t t' : FileTree} {p : Path} {loc : Location} {new : Location → Node → Prop}

/-- Each location is as it was, or there was nothing and what is there now has the property. -/
structure Adds (new : Location → Node → Prop) (t t' : FileTree) : Prop where
  workingDir : t'.workingDir = t.workingDir
  node : ∀ l, t'.node? l = t.node? l ∨
    t.node? l = none ∧ ∃ node, t'.node? l = some node ∧ new l node

namespace Adds

theorem refl (new : Location → Node → Prop) (t : FileTree) : Adds new t t :=
  ⟨rfl, fun _ => Or.inl rfl⟩

/-- What is there in the first tree is there in the second. -/
theorem kept (h : Adds new t t') {node : Node} (hnode : t.node? loc = some node) :
    t'.node? loc = some node := by
  rcases h.node loc with hsame | ⟨hnone, -⟩
  · rw [hsame, hnode]
  · rw [hnone] at hnode
    cases hnode

theorem trans {t'' : FileTree} (h : Adds new t t') (h' : Adds new t' t'') : Adds new t t'' := by
  refine ⟨h'.workingDir.trans h.workingDir, fun l => ?_⟩
  rcases h.node l with hsame | ⟨hnone, node, hnode, hnew⟩
  · rw [← hsame]
    exact h'.node l
  · exact Or.inr ⟨hnone, node, h'.kept hnode, hnew⟩

theorem mono {new' : Location → Node → Prop} (h : Adds new t t')
    (hsub : ∀ l node, new l node → new' l node) : Adds new' t t' := by
  refine ⟨h.workingDir, fun l => ?_⟩
  rcases h.node l with hsame | ⟨hnone, node, hnode, hnew⟩
  · exact Or.inl hsame
  · exact Or.inr ⟨hnone, node, hnode, hsub l node hnew⟩

theorem keeps (h : Adds new t t') : Keeps [] t t' :=
  ⟨h.workingDir, fun _ hl => h.kept hl, fun _ content hl =>
    ⟨[], by rw [List.append_nil]; exact h.kept hl, fun _ => rfl⟩⟩

end Adds

theorem AddsDirs.adds {place : Location → Prop} (h : AddsDirs place t t')
    (hnew : ∀ l, new l .directory) : Adds new t t' := by
  refine ⟨h.workingDir, fun l => ?_⟩
  rcases h.node l with hsame | ⟨hnone, hdir, -⟩
  · exact Or.inl hsame
  · exact Or.inr ⟨hnone, .directory, hdir, hnew l⟩

theorem adds_put {node : Node} (hroot : loc ≠ []) (hfree : t.node? loc = none)
    (hnew : new loc node) : Adds new t (t.put loc node) := by
  refine ⟨rfl, fun l => ?_⟩
  by_cases hl : l = loc
  · subst hl
    exact Or.inr ⟨hfree, node, node?_put_self t hroot node, hnew⟩
  · exact Or.inl (node?_put_ne t hl node)

/-- Making a file over a path that names nothing adds the file, with its content. -/
theorem overwrite_adds {content : Bytes} {made : FileTree} (hp : t.pathExists p = false)
    (h : t.overwrite p content = .ok made) (hnew : new (t.target p) (.file content)) :
    Adds new t made := by
  rw [overwrite] at h
  split at h
  · cases h
  next loc hslot =>
    obtain rfl := Except.ok.inj h
    have hfile := fileSlot_eq_ok hslot
    rw [hfile.target] at hnew
    exact adds_put hfile.ne_root (fileSlot_free hslot hp) hnew

theorem touch_adds {made : FileTree} (h : t.touch p = .ok made)
    (hnew : new (t.target p) (.file [])) : Adds new t made := by
  rw [touch] at h
  split at h
  · cases h
  next loc hslot =>
    have hfile := fileSlot_eq_ok hslot
    split at h
    · obtain rfl := Except.ok.inj h
      exact .refl new t
    next hfree =>
      obtain rfl := Except.ok.inj h
      rw [hfile.target] at hnew
      exact adds_put hfile.ne_root hfree hnew

end MessageArchive.FileTree
