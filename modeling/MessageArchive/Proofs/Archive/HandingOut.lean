import MessageArchive.Proofs.Archive.Preservation
import MessageArchive.Proofs.Archive.Searching

set_option autoImplicit false

/-! # Calls for one name

A name is called for again and again, to be claimed or to store a payload under. `freeNumbers` are
the numbers that the calls have to give away, in increasing order. One call gives away the first of
them and leaves the others (`Call.run_of_free`, `HasSlots.freeNumbers_put`), and when there are none
it changes nothing (`Call.run_of_none`). By induction a run of calls gives them away one by one.

A candidate goes on having its slot while files are made, since nothing that is there is lost. So a
run needs no more than its first call does: that a file is, or can be, under each of the candidates.
-/

namespace MessageArchive.Archive

open MessageArchive.Path
open FileTree (FileSlot Keeps)

variable {t t' : FileTree} {base : Path} {name : String} {limit : Nat}

/-! ## Free numbers -/

/-- The numbers up to the limit whose candidates name nothing, in increasing order. -/
def freeNumbers (t : FileTree) (base : Path) (name : String) (limit : Nat) : List Nat :=
  (List.range (limit + 1)).filter fun i => !t.pathExists (candidate base name i)

theorem mem_freeNumbers {i : Nat} :
    i ∈ freeNumbers t base name limit ↔
      i ≤ limit ∧ t.pathExists (candidate base name i) = false := by
  simp only [freeNumbers, List.mem_filter, List.mem_range, Nat.lt_succ_iff, Bool.not_eq_true']

theorem freeNumbers_sorted (t : FileTree) (base : Path) (name : String) (limit : Nat) :
    (freeNumbers t base name limit).Pairwise (· < ·) :=
  List.Pairwise.filter _ List.pairwise_lt_range

theorem freeNumbers_nodup (t : FileTree) (base : Path) (name : String) (limit : Nat) :
    (freeNumbers t base name limit).Nodup :=
  (freeNumbers_sorted t base name limit).imp Nat.ne_of_lt

theorem freeNumbers_eq_nil_iff :
    freeNumbers t base name limit = [] ↔ AllTaken t base name limit := by
  rw [List.eq_nil_iff_forall_not_mem, AllTaken]
  refine forall_congr' fun i => ?_
  rw [mem_freeNumbers, not_and, Bool.not_eq_false]

theorem leastFree_of_freeNumbers {i : Nat} {rest : List Nat}
    (h : freeNumbers t base name limit = i :: rest) : LeastFree t base name limit i := by
  have hmem : i ∈ freeNumbers t base name limit := h ▸ List.mem_cons_self
  obtain ⟨hle, hfree⟩ := mem_freeNumbers.1 hmem
  refine ⟨hle, hfree, fun j hj => ?_⟩
  by_contra htaken
  have hj' : j ∈ freeNumbers t base name limit :=
    mem_freeNumbers.2 ⟨by omega, Bool.eq_false_iff.2 htaken⟩
  have hsorted := freeNumbers_sorted t base name limit
  rw [h] at hj' hsorted
  rcases List.mem_cons.1 hj' with rfl | hrest
  · exact Nat.lt_irrefl j hj
  · exact Nat.lt_asymm hj ((List.pairwise_cons.1 hsorted).1 j hrest)

/-- In a tree where no candidate names anything, all numbers are free. -/
theorem length_freeNumbers (h : ∀ i ≤ limit, t.pathExists (candidate base name i) = false) :
    (freeNumbers t base name limit).length = limit + 1 := by
  have hall : freeNumbers t base name limit = List.range (limit + 1) := by
    refine List.filter_eq_self.2 fun i hi => ?_
    rw [h i (Nat.lt_succ_iff.1 (List.mem_range.1 hi))]
    rfl
  rw [hall, List.length_range]

/-! ## Candidates that can be used -/

/-- The name is accepted and ends in a proper one, and each of its candidates names something or can
be made: its directory is there and the path is legal. -/
structure Usable (t : FileTree) (base : Path) (name : String) (limit : Nat) : Prop where
  accepted : checkName name = .ok ()
  ends : behindSlash name.toList ≠ []
  notDot : behindSlash name.toList ≠ ['.']
  candidates : ∀ i ≤ limit, t.pathExists (candidate base name i) = true ∨
    t.isDir (candidate base name i).directory = true ∧ (candidate base name i).Legal

/-- Each candidate has a slot for files. -/
structure HasSlots (t : FileTree) (base : Path) (name : String) (limit : Nat) : Prop where
  accepted : checkName name = .ok ()
  slots : ∀ i ≤ limit, t.FileSlot (candidate base name i) (t.target (candidate base name i))

theorem Usable.hasSlots (h : Usable t base name limit) : HasSlots t base name limit where
  accepted := h.accepted
  slots i hi := by
    have hproper := isProper_candidate h.accepted h.ends h.notDot base i
    rcases h.candidates i hi with hexists | ⟨hdir, hlegal⟩
    · exact FileTree.fileSlot_of_exists hproper hexists
    · exact FileTree.fileSlot_of_legal hproper hdir hlegal

namespace HasSlots

theorem of_keeps {grown : List Location} (h : HasSlots t base name limit)
    (hkeeps : Keeps grown t t') : HasSlots t' base name limit where
  accepted := h.accepted
  slots i hi := by
    rw [hkeeps.target]
    exact (h.slots i hi).of_keeps hkeeps

theorem passedOver (h : HasSlots t base name limit) {i : Nat} (hi : i ≤ limit + 1)
    (htaken : ∀ j < i, t.pathExists (candidate base name j) = true) :
    PassedOver t base name i := by
  intro j hj
  rw [FileTree.createNew_of_fileSlot (h.slots j (by omega)), if_pos (htaken j hj)]

/-- A claim gives the first of the free numbers. -/
theorem claim_of_free (h : HasSlots t base name limit) {i : Nat} {rest : List Nat}
    (hfree : freeNumbers t base name limit = i :: rest) :
    claim t base name limit =
      .ok (t.put (t.target (candidate base name i)) (.file []),
        ⟨candidate base name i, t.target (candidate base name i)⟩) := by
  have hi := leastFree_of_freeNumbers hfree
  have hcreated := FileTree.createNew_of_fileSlot (h.slots i hi.le)
  rw [hi.free, if_neg Bool.false_ne_true] at hcreated
  have hpassed : PassedOver t base name i := h.passedOver (Nat.le_succ_of_le hi.le) hi.below
  exact claim_of_created h.accepted hi.le hpassed hcreated

/-- There is nothing to claim when no number is free. -/
theorem claim_of_none (h : HasSlots t base name limit)
    (hfree : freeNumbers t base name limit = []) :
    claim t base name limit = .error (.noUniqueName (base.join name) limit) := by
  have htaken := freeNumbers_eq_nil_iff.1 hfree
  exact claim_of_passedOver h.accepted
    (h.passedOver (Nat.le_refl _) fun j hj => htaken j (Nat.lt_succ_iff.1 hj))

/-- A file at the first of the free numbers takes this number and no other. -/
theorem freeNumbers_put (h : HasSlots t base name limit) {i : Nat} {rest : List Nat}
    (hfree : freeNumbers t base name limit = i :: rest) (content : Bytes) :
    freeNumbers (t.put (t.target (candidate base name i)) (.file content)) base name limit =
      rest := by
  have hi := leastFree_of_freeNumbers hfree
  have hslot := h.slots i hi.le
  have hvacant : t.node? (t.target (candidate base name i)) = none := by
    rw [← Option.not_isSome_iff_eq_none, ← hslot.pathExists_eq, hi.free]
    exact Bool.false_ne_true
  have hkeeps := FileTree.keeps_put hvacant (.file content)
  have hrest : rest = (freeNumbers t base name limit).filter (· != i) := by
    rw [← (freeNumbers_nodup t base name limit).erase_eq_filter, hfree, List.erase_cons_head]
  rw [hrest, freeNumbers, freeNumbers, List.filter_filter]
  refine List.filter_congr fun j hj => ?_
  have hj : j ≤ limit := Nat.lt_succ_iff.1 (List.mem_range.1 hj)
  -- Both trees have the slot, and the new file is at the slot of one number only.
  rw [(h.slots j hj).pathExists_eq, ((h.slots j hj).of_keeps hkeeps).pathExists_eq]
  by_cases hij : j = i
  · subst hij
    rw [FileTree.node?_put_self t hslot.ne_root]
    simp
  · have hne : t.target (candidate base name j) ≠ t.target (candidate base name i) :=
      fun heq => hij ((target_candidate_inj h.accepted t base).1 heq)
    rw [FileTree.node?_put_ne t hne]
    simp [hij]

end HasSlots

/-! ## Calls -/

/-- A call for the name: to claim it, or to store a payload under it. -/
inductive Call where
  | claim
  | store (payload : Bytes)
  deriving DecidableEq, Repr

namespace Call

/-- What the program is asked to do. -/
def operation (base : Path) (name : String) (limit : Nat) : Call → Operation
  | claim => .claim base name limit
  | store payload => .store base name limit payload

/-- What is in the file that is made: a claimed file is empty. -/
def payload : Call → Bytes
  | claim => []
  | store payload => payload

/-- The answer to a call: a path for a claim, and for a payload a receipt with its length and
digest. -/
def answer (result : Except ArchiveError Path) : Call → Answer
  | claim => .path result
  | store payload => .receipt (result.map fun p =>
      ⟨p, payload.length, hexDigest (Digest.Sha256.digest payload)⟩)

/-- What can be claimed can be stored under. -/
theorem store_of_claim {p : Path} {loc : Location} (hroot : loc ≠ []) (payload : Bytes)
    (h : Archive.claim t base name limit = .ok (t.put loc (.file []), ⟨p, loc⟩)) :
    Archive.store t base name limit payload =
      .ok (t.put loc (.file payload),
        ⟨p, payload.length, hexDigest (Digest.Sha256.digest payload)⟩) := by
  let w : Writer := { path := p, location := loc }
  have htree : (w.write (t.put loc (.file [])) payload).1 = t.put loc (.file payload) :=
    Writer.write_put hroot [] payload
  have hwrote : (w.write (t.put loc (.file [])) payload).2.Wrote payload :=
    (Writer.wrote_nil p loc).write _ payload
  rw [Archive.store, createUnique, h]
  show Except.ok ((w.write (t.put loc (.file [])) payload).1,
    (w.write (t.put loc (.file [])) payload).2.finish) = _
  rw [htree, hwrote.finish]
  rfl

/-- A call is answered with the candidate of the first free number, and its file is there. -/
theorem run_of_free (h : HasSlots t base name limit) {i : Nat} {rest : List Nat}
    (hfree : freeNumbers t base name limit = i :: rest) (call : Call) :
    ((call.operation base name limit).run t).answer = call.answer (.ok (candidate base name i)) ∧
      ((call.operation base name limit).run t).tree =
        t.put (t.target (candidate base name i)) (.file call.payload) := by
  have hclaim := h.claim_of_free hfree
  cases call with
  | claim =>
      simp only [operation, Operation.run, runClaim, hclaim, answer, payload, and_self]
  | store payload =>
      have hroot := (h.slots i (leastFree_of_freeNumbers hfree).le).ne_root
      simp only [operation, Operation.run, runStore, store_of_claim hroot payload hclaim, answer,
        Call.payload, Except.map, and_self]

/-- A call for which no number is left fails and changes nothing. -/
theorem run_of_none (h : HasSlots t base name limit)
    (hfree : freeNumbers t base name limit = []) (call : Call) :
    ((call.operation base name limit).run t).answer =
        call.answer (.error (.noUniqueName (base.join name) limit)) ∧
      ((call.operation base name limit).run t).tree = t := by
  have hclaim := h.claim_of_none hfree
  cases call with
  | claim => simp only [operation, Operation.run, runClaim, hclaim, answer, and_self]
  | store payload =>
      simp only [operation, Operation.run, runStore, Archive.store, createUnique, hclaim, answer,
        Except.map, and_self]

/-- One call gives away one number. -/
theorem freeNumbers_run (h : HasSlots t base name limit) (call : Call) :
    freeNumbers ((call.operation base name limit).run t).tree base name limit =
      (freeNumbers t base name limit).drop 1 := by
  cases hfree : freeNumbers t base name limit with
  | nil => rw [(run_of_none h hfree call).2, hfree, List.drop_nil]
  | cons i rest =>
      rw [(run_of_free h hfree call).2, h.freeNumbers_put hfree, List.drop_one, List.tail_cons]

end Call

/-! ## Runs of calls -/

/-- The operations that calls for a name ask for. -/
def operations (base : Path) (name : String) (limit : Nat) (calls : List Call) : List Operation :=
  calls.map (Call.operation base name limit)

theorem operations_cons (call : Call) (rest : List Call) :
    operations base name limit (call :: rest) =
      call.operation base name limit :: operations base name limit rest := rfl

/-- The answers to operations that are carried out one after the other. -/
def answers (t : FileTree) : List Operation → List Answer
  | [] => []
  | op :: rest => (op.run t).answer :: answers (op.run t).tree rest

/-- A path or a receipt is given. -/
def Answer.succeeds : Answer → Bool
  | .path (.ok _) => true
  | .receipt (.ok _) => true
  | _ => false

@[simp]
theorem Call.succeeds_answer_ok (call : Call) (p : Path) :
    (call.answer (.ok p)).succeeds = true := by
  cases call with
  | claim => rfl
  | store payload => rfl

@[simp]
theorem Call.succeeds_answer_error (call : Call) (e : ArchiveError) :
    (call.answer (.error e)).succeeds = false := by
  cases call with
  | claim => rfl
  | store payload => rfl

namespace HasSlots

theorem runAll (h : HasSlots t base name limit) (ops : List Operation) :
    HasSlots (runAll t ops).1 base name limit :=
  h.of_keeps (runAll_keeps t ops)

/-- Calls give away the free numbers from the first on. -/
theorem freeNumbers_runAll (h : HasSlots t base name limit) (calls : List Call) :
    freeNumbers (Archive.runAll t (operations base name limit calls)).1 base name limit =
      (freeNumbers t base name limit).drop calls.length := by
  -- All calls after the first find the tree that it leaves, where its number is gone.
  induction calls generalizing t with
  | nil => rfl
  | cons call rest ih =>
      have hnext := h.of_keeps (Operation.run_keeps t (call.operation base name limit))
      rw [operations_cons, runAll_cons, ih hnext, Call.freeNumbers_run h, List.drop_drop,
        List.length_cons, Nat.add_comm]

/-- As many calls succeed as there are free numbers. -/
theorem countP_answers (h : HasSlots t base name limit) (calls : List Call) :
    (answers t (operations base name limit calls)).countP Answer.succeeds =
      min calls.length (freeNumbers t base name limit).length := by
  induction calls generalizing t with
  | nil => simp [operations, answers]
  | cons call rest ih =>
      have hnext := h.of_keeps (Operation.run_keeps t (call.operation base name limit))
      have hrest := ih hnext
      rw [Call.freeNumbers_run h] at hrest
      rw [operations_cons, answers, List.countP_cons, hrest]
      cases hfree : freeNumbers t base name limit with
      | nil => simp [(Call.run_of_none h hfree call).1]
      | cons i more => simp [(Call.run_of_free h hfree call).1]

end HasSlots

/-- How the free numbers of a tree are handed out to calls for a name. -/
structure HandsOut (t : FileTree) (base : Path) (name : String) (limit : Nat) : Prop where
  /-- The numbers that are free at the start, and no others, in increasing order. -/
  free : ∀ i, i ∈ freeNumbers t base name limit ↔
    i ≤ limit ∧ t.pathExists (candidate base name i) = false
  increasing : (freeNumbers t base name limit).Pairwise (· < ·)
  /-- As long as there is a number left, the next call gets the next number, and all it does is to
  make a file with its payload there. -/
  next : ∀ (calls : List Call) (call : Call) (i : Nat),
    (freeNumbers t base name limit)[calls.length]? = some i →
      let before := (runAll t (operations base name limit calls)).1
      let outcome := (call.operation base name limit).run before
      outcome.answer = call.answer (.ok (candidate base name i)) ∧
        outcome.tree = before.put (t.target (candidate base name i)) (.file call.payload)
  /-- Every later call fails and changes nothing. -/
  exhausted : ∀ (calls : List Call) (call : Call),
    (freeNumbers t base name limit).length ≤ calls.length →
      let before := (runAll t (operations base name limit calls)).1
      let outcome := (call.operation base name limit).run before
      outcome.answer = call.answer (.error (.noUniqueName (base.join name) limit)) ∧
        outcome.tree = before
  /-- As many calls succeed as there are free numbers. -/
  count : ∀ calls : List Call,
    (answers t (operations base name limit calls)).countP Answer.succeeds =
      min calls.length (freeNumbers t base name limit).length
  /-- The limit is used to the last: all numbers up to it are given away where none is taken. -/
  allFree : (∀ i ≤ limit, t.pathExists (candidate base name i) = false) →
    ∀ calls : List Call,
      (answers t (operations base name limit calls)).countP Answer.succeeds =
        min calls.length (limit + 1)

theorem HasSlots.handsOut (h : HasSlots t base name limit) : HandsOut t base name limit where
  free _ := mem_freeNumbers
  increasing := freeNumbers_sorted t base name limit
  next calls call i hi := by
    have hslots := h.runAll (operations base name limit calls)
    have hkeeps := runAll_keeps t (operations base name limit calls)
    have hfree : freeNumbers (Archive.runAll t (operations base name limit calls)).1 base name limit =
        i :: (freeNumbers t base name limit).drop (calls.length + 1) := by
      obtain ⟨hlength, rfl⟩ := List.getElem?_eq_some_iff.1 hi
      rw [h.freeNumbers_runAll, List.drop_eq_getElem_cons hlength]
    rw [← hkeeps.target]
    exact Call.run_of_free hslots hfree call
  exhausted calls call hlength := by
    have hslots := h.runAll (operations base name limit calls)
    have hfree : freeNumbers (Archive.runAll t (operations base name limit calls)).1 base name limit =
        [] := by
      rw [h.freeNumbers_runAll, List.drop_eq_nil_of_le hlength]
    exact Call.run_of_none hslots hfree call
  count := h.countP_answers
  allFree hnone calls := by
    rw [h.countP_answers, length_freeNumbers hnone]

/-- **Free numbers are handed out in increasing order.** Where each candidate up to the limit names
something or can be made, the calls for a name get the numbers that were free at the start, one by
one and in increasing order, whatever they store. When all are given away every further call fails
for want of a name and changes nothing. So one call more than the limit succeeds where no candidate
was taken. -/
theorem free_numbers_are_handed_out (h : Usable t base name limit) : HandsOut t base name limit :=
  h.hasSlots.handsOut

/-- With the name and its first number taken, two of the numbers up to three are free. -/
theorem free_numbers_are_handed_out_oneTaken :
    freeNumbers oneTaken ⟨"d"⟩ "a" 3 = [2, 3] ∧ HandsOut oneTaken ⟨"d"⟩ "a" 3 := by
  refine ⟨by decide, free_numbers_are_handed_out ⟨by decide, by decide, by decide, ?_⟩⟩
  intro i hi
  refine Or.inr ?_
  obtain rfl | rfl | rfl | rfl : i = 0 ∨ i = 1 ∨ i = 2 ∨ i = 3 := by omega
  all_goals exact ⟨by decide, by decide, by decide, by decide⟩

end MessageArchive.Archive
