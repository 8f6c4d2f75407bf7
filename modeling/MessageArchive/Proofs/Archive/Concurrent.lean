import Mathlib.Logic.Function.Basic
import MessageArchive.Archive.Writer
import MessageArchive.Proofs.Archive.Searching

set_option autoImplicit false

/-! # Archivers that share a file tree

Several archivers work on one tree at the same time. Each searches for a file, one candidate in one
step, then writes pieces to it, and ends by finishing or discarding. A step of one archiver is
atomic; the steps of different archivers come in any order (`Run`).

The steps are those of the search and of the writer. An archiver that is left alone comes to what a
claim comes to (`run_claim`).
-/

namespace MessageArchive.Archive

/-- What an archiver is asked for: a file for a name below a base. -/
structure Job where
  base : Path
  name : String
  limit : Nat
  deriving DecidableEq, Repr

/-- How far an archiver has come. -/
inductive Archiver where
  /-- The candidate with this number is tried next. -/
  | searching (job : Job) (index : Nat)
  /-- A file is claimed and the writer is not finished. -/
  | writing (w : Writer)
  | finished (receipt : Receipt)
  | discarded
  | failed (e : ArchiveError)
  deriving DecidableEq, Repr

/-- What an archiver does in one step. -/
inductive Action where
  /-- Tries to make the next candidate. -/
  | attempt
  | write (data : Bytes)
  | finish
  | discard
  deriving DecidableEq, Repr

namespace Archiver

/-- An archiver at the start. The name is checked before anything is tried. -/
def begin (job : Job) : Archiver :=
  match checkName job.name with
  | .ok () => .searching job 0
  | .error e => .failed e

/-- An action of an archiver, with the tree before and after. -/
inductive Step : FileTree → Archiver → Action → FileTree → Archiver → Prop
  | created {t made : FileTree} {job : Job} {index : Nat} {loc : Location}
      (made_eq : t.createNew (candidate job.base job.name index) = .ok (made, loc)) :
      Step t (.searching job index) .attempt made
        (.writing { path := candidate job.base job.name index, location := loc })
  | passed {t : FileTree} {job : Job} {index : Nat}
      (taken : t.createNew (candidate job.base job.name index) = .error .alreadyExists)
      (more : index < job.limit) :
      Step t (.searching job index) .attempt t (.searching job (index + 1))
  | exhausted {t : FileTree} {job : Job} {index : Nat}
      (taken : t.createNew (candidate job.base job.name index) = .error .alreadyExists)
      (last : ¬ index < job.limit) :
      Step t (.searching job index) .attempt t
        (.failed (.noUniqueName (job.base.join job.name) job.limit))
  | refused {t : FileTree} {job : Job} {index : Nat} {cause : FileError}
      (refused_eq : t.createNew (candidate job.base job.name index) = .error cause)
      (other : cause ≠ .alreadyExists) :
      Step t (.searching job index) .attempt t
        (.failed (.file (.createFile (candidate job.base job.name index)) cause))
  | wrote (t : FileTree) (w : Writer) (data : Bytes) :
      Step t (.writing w) (.write data) (w.write t data).1 (.writing (w.write t data).2)
  | finished (t : FileTree) (w : Writer) : Step t (.writing w) .finish t (.finished w.finish)
  | discarded (t : FileTree) (w : Writer) :
      Step t (.writing w) .discard (w.discard t) .discarded

end Archiver

/-- A tree and the archivers that work on it. -/
structure System (ι : Type) where
  tree : FileTree
  archivers : ι → Archiver

namespace System

variable {ι : Type} [DecidableEq ι]

/-- All archivers are at the start. -/
def begin (t : FileTree) (jobs : ι → Job) : System ι := ⟨t, fun i => Archiver.begin (jobs i)⟩

/-- An action of one of the archivers. -/
inductive Step (s : System ι) (i : ι) (a : Action) : System ι → Prop
  | mk {tree : FileTree} {archiver : Archiver}
      (step : Archiver.Step s.tree (s.archivers i) a tree archiver) :
      Step s i a ⟨tree, Function.update s.archivers i archiver⟩

/-- Actions in the order they happen in, each with the archiver it is an action of. -/
inductive Run (s : System ι) : List (ι × Action) → System ι → Prop
  | nil : Run s [] s
  | snoc {schedule : List (ι × Action)} {s' s'' : System ι} {i : ι} {a : Action}
      (run : Run s schedule s') (step : Step s' i a s'') : Run s (schedule ++ [(i, a)]) s''

theorem Run.append {s s' s'' : System ι} {schedule later : List (ι × Action)}
    (h : Run s schedule s') (h' : Run s' later s'') : Run s (schedule ++ later) s'' := by
  induction h' with
  | nil => rwa [List.append_nil]
  | snoc run step ih =>
      rw [← List.append_assoc]
      exact .snoc ih step

theorem Run.cons {s s' s'' : System ι} {schedule : List (ι × Action)} {i : ι} {a : Action}
    (step : Step s i a s') (h : Run s' schedule s'') : Run s ((i, a) :: schedule) s'' :=
  Run.append (.snoc .nil step) h

end System

/-! ## An archiver that is left alone -/

/-- The tree and the archiver after a claim. -/
def afterClaim (t : FileTree) : Except ArchiveError (FileTree × Claim) → System Unit
  | .ok (made, c) => ⟨made, fun _ => .writing { path := c.path, location := c.location }⟩
  | .error e => ⟨t, fun _ => .failed e⟩

theorem System.Step.alone {t tree : FileTree} {before after : Archiver} {a : Action}
    (h : Archiver.Step t before a tree after) :
    System.Step (⟨t, fun _ => before⟩ : System Unit) () a ⟨tree, fun _ => after⟩ := by
  have hstep : System.Step (⟨t, fun _ => before⟩ : System Unit) () a
      ⟨tree, Function.update (fun _ => before) () after⟩ := .mk h
  have hall : Function.update (fun _ : Unit => before) () after = fun _ => after := by
    funext u
    exact Function.update_self () after fun _ => before
  rwa [hall] at hstep

theorem run_claimFrom (t : FileTree) (job : Job) {more index : Nat}
    (hmore : index + more = job.limit) :
    ∃ n, System.Run ⟨t, fun _ => .searching job index⟩ (List.replicate n ((), .attempt))
      (afterClaim t (claimFrom t job.base job.name job.limit (more + 1) index)) := by
  induction more generalizing index with
  | zero =>
      refine ⟨1, .cons ?_ .nil⟩
      unfold claimFrom
      split
      next made loc hmade => exact .alone (.created hmade)
      next htaken => exact .alone (.exhausted htaken (by omega))
      next cause hother hcause => exact .alone (.refused hcause hother)
  | succ more ih =>
      unfold claimFrom
      split
      next made loc hmade => exact ⟨1, .cons (.alone (.created hmade)) .nil⟩
      next htaken =>
        obtain ⟨n, hrun⟩ := ih (show index + 1 + more = job.limit by omega)
        exact ⟨n + 1, .cons (.alone (.passed htaken (by omega))) hrun⟩
      next cause hother hcause => exact ⟨1, .cons (.alone (.refused hcause hother)) .nil⟩

/-- **An archiver that is left alone comes to what a claim comes to.** -/
theorem run_claim (t : FileTree) (job : Job) :
    ∃ n, System.Run (System.begin t fun _ => job) (List.replicate n ((), .attempt))
      (afterClaim t (claim t job.base job.name job.limit)) := by
  cases hcheck : checkName job.name with
  | ok u =>
      have hbegin : Archiver.begin job = .searching job 0 := by rw [Archiver.begin, hcheck]
      simp only [claim, hcheck, System.begin, hbegin]
      exact run_claimFrom t job (Nat.zero_add job.limit)
  | error e =>
      have hbegin : Archiver.begin job = .failed e := by rw [Archiver.begin, hcheck]
      simp only [claim, hcheck, System.begin, hbegin]
      exact ⟨0, .nil⟩

/-- An archiver that is left alone and writes a payload has stored it. -/
theorem run_store {t stored : FileTree} {job : Job} {payload : Bytes} {receipt : Receipt}
    (h : store t job.base job.name job.limit payload = .ok (stored, receipt)) :
    ∃ n, System.Run (System.begin t fun _ => job)
      (List.replicate n ((), .attempt) ++ [((), .write payload), ((), .finish)])
      ⟨stored, fun _ => .finished receipt⟩ := by
  obtain ⟨n, hrun⟩ := run_claim t job
  rw [store, createUnique] at h
  cases hclaim : claim t job.base job.name job.limit with
  | error e =>
      rw [hclaim] at h
      exact absurd h (by simp [Except.map])
  | ok claimed =>
      obtain ⟨made, c⟩ := claimed
      rw [hclaim] at h hrun
      simp only [Except.map, Except.ok.injEq, Prod.mk.injEq] at h
      obtain ⟨rfl, rfl⟩ := h
      exact ⟨n, hrun.append (.cons (.alone (.wrote _ _ payload))
        (.cons (.alone (.finished _ _)) .nil))⟩

end MessageArchive.Archive
