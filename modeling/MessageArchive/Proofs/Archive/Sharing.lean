import MessageArchive.Proofs.Archive.Ownership

set_option autoImplicit false

/-! # What archivers that share a tree can rely on

The state of a run is what the invariant of `Ownership` says. What an archiver has met on its way is
not in the state: a candidate that it has passed over may be gone again, when its owner discards it.
So the tries are kept as parts of the run (`Tried`); a run only grows, and what has been tried stays
tried (`Tried.snoc`).
-/

namespace MessageArchive.Archive

open MessageArchive.Digest
open FileTree (SameDirs)

variable {ι : Type} [DecidableEq ι]
variable {start : FileTree} {jobs : ι → Job} {schedule : List (ι × Action)} {s : System ι}

/-! ## Tries -/

/-- In the run to a state, an archiver has tried a candidate, and the candidate existed then. -/
def Tried (start : FileTree) (jobs : ι → Job) (schedule : List (ι × Action)) (s : System ι)
    (i : ι) (index : Nat) : Prop :=
  ∃ before there after, schedule = before ++ (i, .attempt) :: after ∧
    System.Run (System.begin start jobs) before there ∧
    System.Run there ((i, .attempt) :: after) s ∧
    there.archivers i = .searching (jobs i) index ∧
    there.tree.pathExists (candidate (jobs i).base (jobs i).name index) = true

theorem Tried.snoc {i j : ι} {a : Action} {s' : System ι} {index : Nat}
    (h : Tried start jobs schedule s i index) (hstep : System.Step s j a s') :
    Tried start jobs (schedule ++ [(j, a)]) s' i index := by
  obtain ⟨before, there, after, rfl, hbefore, hafter, hsearching, hexists⟩ := h
  exact ⟨before, there, after ++ [(j, a)], by simp, hbefore, .snoc hafter hstep, hsearching,
    hexists⟩

/-- What an archiver has tried to get where it is. -/
def Searched (job : Job) (tried : Nat → Prop) : Archiver → Prop
  | .searching job' index => job' = job ∧ index ≤ job.limit ∧ ∀ k < index, tried k
  | .failed (.noUniqueName p attempts) =>
      p = job.base.join job.name ∧ attempts = job.limit ∧ ∀ k ≤ job.limit, tried k
  | _ => True

theorem Searched.mono {job : Job} {tried tried' : Nat → Prop} {archiver : Archiver}
    (h : Searched job tried archiver) (hmono : ∀ k, tried k → tried' k) :
    Searched job tried' archiver := by
  unfold Searched at h ⊢
  split
  · exact ⟨h.1, h.2.1, fun k hk => hmono k (h.2.2 k hk)⟩
  · exact ⟨h.1, h.2.1, fun k hk => hmono k (h.2.2 k hk)⟩
  · trivial

theorem searched_begin (job : Job) (tried : Nat → Prop) :
    Searched job tried (Archiver.begin job) := by
  rw [Archiver.begin]
  split
  · exact ⟨rfl, Nat.zero_le _, fun k hk => absurd hk (Nat.not_lt_zero k)⟩
  next e he =>
    -- A name that is not accepted is no search that came to its end.
    obtain rfl := checkName_eq_error he
    trivial

/-- A step adds at most the candidate it is about to what has been tried. -/
theorem Searched.step {job : Job} {tried tried' : Nat → Prop} {t t' : FileTree}
    {before after : Archiver} {a : Action} (h : Searched job tried before)
    (hstep : Archiver.Step t before a t' after) (hanchored : t.Anchored)
    (hmono : ∀ k, tried k → tried' k)
    (hnow : ∀ k, a = .attempt → before = .searching job k →
      t.pathExists (candidate job.base job.name k) = true → tried' k) :
    Searched job tried' after := by
  cases hstep with
  | @passed job' index htaken hmore =>
      obtain ⟨rfl, -, htried⟩ := h
      refine ⟨rfl, hmore, fun k hk => ?_⟩
      rcases Nat.lt_succ_iff_lt_or_eq.1 hk with hk | rfl
      · exact hmono k (htried k hk)
      · exact hnow k rfl rfl (FileTree.pathExists_of_alreadyExists hanchored htaken)
  | @exhausted job' index htaken hlast =>
      obtain ⟨rfl, hle, htried⟩ := h
      refine ⟨rfl, rfl, fun k hk => ?_⟩
      rcases Nat.lt_or_eq_of_le (show k ≤ index by omega) with hk | rfl
      · exact hmono k (htried k hk)
      · exact hnow k rfl rfl (FileTree.pathExists_of_alreadyExists hanchored htaken)
  | created hmade => trivial
  | refused hrefused hother => trivial
  | wrote w data => trivial
  | finished w => trivial
  | discarded w => trivial

/-- Along a run, what has been passed over has been tried and existed then. -/
theorem System.Run.searched (hanchored : start.Anchored)
    (h : System.Run (System.begin start jobs) schedule s) :
    ∀ i, Searched (jobs i) (Tried start jobs schedule s i) (s.archivers i) := by
  induction h with
  | nil => exact fun i => searched_begin (jobs i) _
  | @snoc schedule s s' i a hrun hstep ih =>
      intro j
      have hwhole := hstep
      obtain ⟨hact⟩ := hstep
      have hthen := hrun.consistent.dirs.anchored hanchored
      by_cases hj : j = i
      · subst hj
        show Searched _ _ (Function.update s.archivers j _ j)
        rw [Function.update_self]
        refine (ih j).step hact hthen (fun k hk => hk.snoc hwhole) ?_
        rintro k rfl hsearching hexists
        exact ⟨schedule, s, [], rfl, hrun, .cons hwhole .nil, hsearching, hexists⟩
      · show Searched _ _ (Function.update s.archivers i _ j)
        rw [Function.update_of_ne hj]
        exact (ih j).mono fun k hk => hk.snoc hwhole

/-! ## Owners -/

/-- A file is the one that an archiver has open, or the one that its receipt names. -/
inductive System.Owns (s : System ι) (i : ι) (loc : Location) : Prop
  | writing (w : Writer) (archiver_eq : s.archivers i = .writing w) (location_eq : w.location = loc)
  | finished (receipt : Receipt) (archiver_eq : s.archivers i = .finished receipt)
      (located : s.tree.locate receipt.path = .ok loc)

theorem Consistent.owns (h : Consistent start jobs schedule s) {i : ι} {loc : Location}
    (howns : s.Owns i loc) : ∃ p, (s.archivers i).path? = some p ∧ start.target p = loc := by
  cases howns with
  | writing w hw hloc =>
      refine ⟨w.path, by rw [hw]; rfl, ?_⟩
      rw [← hloc, (h.writer hw).1.slot.target]
  | finished receipt hfinished hlocated =>
      refine ⟨receipt.path, by rw [hfinished]; rfl, ?_⟩
      rw [FileTree.locate_eq_target hlocated, h.dirs.target]

/-- What a receipt says of the file it names. -/
structure Receipt.Vouches (receipt : Receipt) (tree : FileTree) (content : Bytes) : Prop where
  file : tree.contentOf receipt.path = .ok content
  bytes : receipt.bytes = content.length
  sha256 : receipt.sha256 = hexDigest (Sha256.digest content)

theorem Consistent.vouches (h : Consistent start jobs schedule s) {i : ι} {receipt : Receipt}
    (hfinished : s.archivers i = .finished receipt) :
    receipt.Vouches s.tree (written i schedule) := by
  have hholds := h.holds i
  rw [hfinished] at hholds
  obtain ⟨hown, hbytes, hsha⟩ := hholds
  have hlocate := (h.dirs.fileSlot hown.slot.toFileSlot).locate hown.file
  exact ⟨FileTree.contentOf_of_locate hlocate hown.file, hbytes, hsha⟩

/-! ## All together -/

/-- What holds at each state that archivers come to on a tree they share. -/
structure KeepApart (start : FileTree) (jobs : ι → Job) (schedule : List (ι × Action))
    (s : System ι) : Prop where
  /-- A file has one owner at most. -/
  apart : ∀ i j loc, s.Owns i loc → s.Owns j loc → i = j
  /-- It was made for its owner and holds what the owner has written. -/
  owned : ∀ i loc, s.Owns i loc →
    start.node? loc = none ∧ s.tree.node? loc = some (.file (written i schedule))
  /-- What was there at the start is there as it was. -/
  kept : ∀ loc node, start.node? loc = some node → s.tree.node? loc = some node
  /-- A receipt stays, and stays right. -/
  receipts : ∀ i receipt, s.archivers i = .finished receipt → ∀ later s', System.Run s later s' →
    s'.archivers i = .finished receipt ∧ receipt.Vouches s'.tree (written i schedule)
  /-- A file that is discarded is the archiver's own. -/
  discards : ∀ i s', System.Step s i .discard s' →
    ∃ w, s.archivers i = .writing w ∧ s.Owns i w.location ∧ s'.tree = s.tree.erase w.location
  /-- A search that found nothing has met every candidate. -/
  exhausted : ∀ i p attempts, s.archivers i = .failed (.noUniqueName p attempts) →
    p = (jobs i).base.join (jobs i).name ∧ attempts = (jobs i).limit ∧
      ∀ k ≤ (jobs i).limit, Tried start jobs schedule s i k

/-- **Archivers on one tree never share a file.** At each state of each run a file has one owner at
most, who made it and whose writes it holds; what was there at the start is there still; a receipt
is right from the step that gave it out on; who discards removes his own file; and who has found no
name has met every candidate at the step that tried it. -/
theorem archivers_share_no_file (start : FileTree) (hanchored : start.Anchored) (jobs : ι → Job)
    (schedule : List (ι × Action)) (s : System ι)
    (hrun : System.Run (System.begin start jobs) schedule s) :
    KeepApart start jobs schedule s := by
  have h := hrun.consistent
  refine ⟨fun i j loc hi hj => ?_, fun i loc hi => ?_, h.kept, fun i receipt hi later s' hlater => ?_,
    fun i s' hstep => ?_, fun i p attempts hfailed => ?_⟩
  · obtain ⟨p, hp, hloc⟩ := h.owns hi
    obtain ⟨q, hq, hloc'⟩ := h.owns hj
    by_contra hij
    exact h.apart i j hij p q hp hq (hloc.trans hloc'.symm)
  · obtain ⟨p, hp, rfl⟩ := h.owns hi
    have hown := (h.holds i).ownFile hp
    exact ⟨hown.slot.free, hown.file⟩
  · obtain ⟨hstill, hnothing⟩ := hlater.finished hi
    have hvouches := (hrun.append hlater).consistent.vouches hstill
    rw [written_append, hnothing, List.append_nil] at hvouches
    exact ⟨hstill, hvouches⟩
  · obtain ⟨hstep⟩ := hstep
    generalize hbefore : s.archivers i = before at hstep
    cases hstep with
    | discarded w => exact ⟨w, rfl, .writing w hbefore rfl, h.discard hbefore⟩
  · have hsearched := hrun.searched hanchored i
    rw [hfailed] at hsearched
    exact hsearched

/-! ### Two archivers that ask for one name -/

/-- The one may try two candidates, the other has to be content with the name itself. -/
def rivals (patient : Bool) : Job := ⟨⟨"d"⟩, "b", if patient then 1 else 0⟩

/-- The first to come gets the name, and the other nothing. -/
def rivalry : List (Bool × Action) :=
  [(true, .attempt), (false, .attempt), (true, .write [2, 3]), (true, .finish)]

theorem rivals_share_no_file : ∃ s receipt, oneTaken.Anchored ∧
    System.Run (System.begin oneTaken rivals) rivalry s ∧
    s.archivers true = .finished receipt ∧
    s.archivers false = .failed (.noUniqueName (Path.join ⟨"d"⟩ "b") 0) ∧
    KeepApart oneTaken rivals rivalry s := by
  have hmade : oneTaken.createNew (candidate ⟨"d"⟩ "b" 0) =
      .ok (oneTaken.put ["b", "d"] (.file []), ["b", "d"]) := by decide
  have htaken : (oneTaken.put ["b", "d"] (.file [])).createNew (candidate ⟨"d"⟩ "b" 0) =
      .error .alreadyExists := by decide
  have hrun : System.Run (System.begin oneTaken rivals) rivalry _ :=
    .cons (.mk (.created hmade)) (.cons (.mk (.exhausted htaken (by decide)))
      (.cons (.mk (.wrote _ _ _)) (.cons (.mk (.finished _ _)) .nil)))
  exact ⟨_, _, oneTaken_anchored, hrun, rfl, rfl,
    archivers_share_no_file oneTaken oneTaken_anchored rivals rivalry _ hrun⟩

end MessageArchive.Archive
