import MessageArchive.Archive.Checksum
import MessageArchive.Proofs.CommandLine.Keeping

set_option autoImplicit false

/-! # Nothing archived is lost

An `Operation` is anything the program can be asked to do to a file tree, be it through its library
or through a command line. No operation takes a file away or changes its content, apart from log
files, which get longer (`Operation.run_keeps`). The receipts that an operation gives out are for
new files (`Operation.run_newFile`). Over a run of operations both add up: what a receipt was given
out for can be read in the end.
-/

namespace MessageArchive.Archive

open FileTree (Keeps)
open CommandLine (Report)

/-! ## Operations -/

/-- How a writer ends. -/
inductive WriterEnd where
  | finish
  | drop
  | discard
  deriving DecidableEq, Repr

/-- What the program can be asked to do. -/
inductive Operation where
  | ensureDir (dir : Path)
  | uniquePath (base : Path) (name : String) (limit : Nat)
  | claim (base : Path) (name : String) (limit : Nat)
  | store (base : Path) (name : String) (limit : Nat) (payload : Bytes)
  | writer (base : Path) (name : String) (limit : Nat) (pieces : List Bytes) (ending : WriterEnd)
  | archive (s : Settings) (context : Context) (payload : Bytes) (now : Calendar.Moment)
  | previewPath (s : Settings) (context : Context) (now : Calendar.Moment)
  | resolveName (s : Settings) (context : Context) (now : Calendar.Moment)
  | checksum (path : Path)
  | verify (path : Path) (expected : String)
  | loadMessage (path : Path)
  | loadSettings (path : Path)
  | loadOrInit (e : Environment)
  | commandLine (e : Environment) (now : Calendar.Moment) (args : List String)
  /-- Lines for the log, of whatever is done. -/
  | log (e : Environment) (lines : Bytes)

/-- What an operation answers. -/
inductive Answer where
  | nothing
  | ensured (result : Except ArchiveError Unit)
  | path (result : Except ArchiveError Path)
  | receipt (result : Except ArchiveError Receipt)
  | tracedReceipt (work : Audit.Traced Receipt)
  | tracedPath (work : Audit.Traced Path)
  | tracedName (work : Audit.Traced String)
  | digest (result : Except ChecksumError String)
  | verified (result : Except ChecksumError Bool)
  | message (result : Except ReadError Message)
  | settings (result : Except ReadError Settings)
  | usualSettings (result : Except SettingsError Settings)
  | report (report : Report)

/-- The answer to an operation, the tree it leaves, and the receipt it gives out. -/
structure Outcome where
  answer : Answer
  tree : FileTree
  issued : Option Issued := none

/-- Claims a file, which stays empty. -/
def runClaim (base : Path) (name : String) (limit : Nat) (t : FileTree) : Outcome :=
  match claim t base name limit with
  | .error e => ⟨.path (.error e), t, none⟩
  | .ok (made, claimed) => ⟨.path (.ok claimed.path), made, none⟩

/-- Writes a payload to a file of its own. -/
def runStore (base : Path) (name : String) (limit : Nat) (payload : Bytes) (t : FileTree) :
    Outcome :=
  match store t base name limit payload with
  | .error e => ⟨.receipt (.error e), t, none⟩
  | .ok (stored, receipt) => ⟨.receipt (.ok receipt), stored, some ⟨receipt, payload⟩⟩

/-- Writes pieces to a file of its own and ends the writer. -/
def runWriter (base : Path) (name : String) (limit : Nat) (pieces : List Bytes)
    (ending : WriterEnd) (t : FileTree) : Outcome :=
  match createUnique t base name limit with
  | .error e => ⟨.receipt (.error e), t, none⟩
  | .ok (made, w) =>
      let (written, w) := w.writeAll made pieces
      match ending with
      | .finish => ⟨.receipt (.ok w.finish), written, some ⟨w.finish, pieces.flatten⟩⟩
      | .drop => ⟨.nothing, written, none⟩
      | .discard => ⟨.nothing, w.discard written, none⟩

/-- Archives the payload of a message. -/
def runArchive (s : Settings) (context : Context) (payload : Bytes) (now : Calendar.Moment)
    (t : FileTree) : Outcome :=
  let (work, tree) := archive s context payload now t
  match work.result with
  | .error _ => ⟨.tracedReceipt work, tree, none⟩
  | .ok receipt => ⟨.tracedReceipt work, tree, some ⟨receipt, payload⟩⟩

/-- Adds lines to the log file. They are lost where there is none. -/
def writeLog (e : Environment) (lines : Bytes) (t : FileTree) : FileTree :=
  match t.locate e.logFile with
  | .error _ => t
  | .ok loc => t.appendAt loc lines

namespace Operation

/-- Carries out an operation. -/
def run (t : FileTree) : Operation → Outcome
  | .ensureDir dir => ⟨.ensured (Archive.ensureDir t dir).1, (Archive.ensureDir t dir).2, none⟩
  | .uniquePath base name limit => ⟨.path (Archive.uniquePath t base name limit), t, none⟩
  | .claim base name limit => runClaim base name limit t
  | .store base name limit payload => runStore base name limit payload t
  | .writer base name limit pieces ending => runWriter base name limit pieces ending t
  | .archive s context payload now => runArchive s context payload now t
  | .previewPath s context now => ⟨.tracedPath (Archive.previewPath s context now t), t, none⟩
  | .resolveName s context now => ⟨.tracedName (Archive.resolveName s context now), t, none⟩
  | .checksum path => ⟨.digest (Archive.checksum t path), t, none⟩
  | .verify path expected => ⟨.verified (Archive.verify t path expected), t, none⟩
  | .loadMessage path => ⟨.message (Message.load t path), t, none⟩
  | .loadSettings path => ⟨.settings (Settings.load t path), t, none⟩
  | .loadOrInit e =>
      ⟨.usualSettings (Settings.loadOrInit e t).1, (Settings.loadOrInit e t).2, none⟩
  | .commandLine e now args =>
      ⟨.report (CommandLine.run e now t args).1, (CommandLine.run e now t args).2,
        CommandLine.issued? e now t args⟩
  | .log e lines => ⟨.nothing, writeLog e lines t, none⟩

/-- The log files that an operation may make longer. -/
def logs (t : FileTree) : Operation → List Location
  | .log e _ => [t.target e.logFile]
  | _ => []

theorem logs_of_keeps {grown : List Location} {t t' : FileTree} (hkeeps : Keeps grown t t')
    (op : Operation) : op.logs t' = op.logs t := by
  cases op with
  | log e lines =>
      show [t'.target e.logFile] = [t.target e.logFile]
      rw [hkeeps.target]
  | _ => rfl

end Operation

/-! ## One operation -/

section Parts

variable {base : Path} {name : String} {limit : Nat} {t : FileTree} {i : Issued}

theorem writeLog_keeps (e : Environment) (lines : Bytes) (t : FileTree) :
    Keeps [t.target e.logFile] t (writeLog e lines t) := by
  unfold writeLog
  split
  · exact Keeps.refl _ t
  next loc hloc =>
    have htarget := FileTree.locate_eq_target hloc
    rw [← htarget]
    exact FileTree.appendAt_keeps t loc lines

theorem runClaim_keeps (base : Path) (name : String) (limit : Nat) (t : FileTree) :
    Keeps [] t (runClaim base name limit t).tree := by
  unfold runClaim
  split
  · exact Keeps.refl [] t
  next made claimed hclaim =>
    obtain ⟨hslot, hmade, -⟩ := claim_eq_ok hclaim
    rw [hmade]
    exact FileTree.keeps_put hslot.free _

theorem runClaim_issued : (runClaim base name limit t).issued = none := by
  unfold runClaim
  split
  · rfl
  · rfl

theorem runStore_keeps (base : Path) (name : String) (limit : Nat) (payload : Bytes)
    (t : FileTree) : Keeps [] t (runStore base name limit payload t).tree := by
  unfold runStore
  split
  · exact Keeps.refl [] t
  next stored receipt hstore => exact (store_eq_ok hstore).keeps

theorem runStore_newFile {payload : Bytes}
    (h : (runStore base name limit payload t).issued = some i) :
    NewFile t (runStore base name limit payload t).tree i.receipt.path i.payload := by
  unfold runStore at h ⊢
  cases hstore : store t base name limit payload with
  | error e =>
      rw [hstore] at h
      cases h
  | ok done =>
      obtain ⟨stored, receipt⟩ := done
      rw [hstore] at h
      obtain rfl := Option.some.inj h
      exact (store_eq_ok hstore).newFile

theorem runWriter_keeps (base : Path) (name : String) (limit : Nat) (pieces : List Bytes)
    (ending : WriterEnd) (t : FileTree) :
    Keeps [] t (runWriter base name limit pieces ending t).tree := by
  unfold runWriter
  split
  · exact Keeps.refl [] t
  next made w hcreate =>
    have hstored := stored_of_writeAll hcreate pieces
    cases ending with
    | finish => exact hstored.keeps
    | drop => exact hstored.keeps
    | discard =>
        -- The file that is removed is the one that was claimed.
        have hback := discard_writeAll hcreate pieces
        show Keeps [] t ((w.writeAll made pieces).2.discard (w.writeAll made pieces).1)
        rw [hback]
        exact Keeps.refl [] t

theorem runWriter_newFile {pieces : List Bytes} {ending : WriterEnd}
    (h : (runWriter base name limit pieces ending t).issued = some i) :
    NewFile t (runWriter base name limit pieces ending t).tree i.receipt.path i.payload := by
  unfold runWriter at h ⊢
  cases hcreate : createUnique t base name limit with
  | error e =>
      rw [hcreate] at h
      cases h
  | ok created =>
      obtain ⟨made, w⟩ := created
      rw [hcreate] at h
      cases ending with
      | finish =>
          obtain rfl := Option.some.inj h
          exact (stored_of_writeAll hcreate pieces).newFile
      | drop => cases h
      | discard => cases h

variable {s : Settings} {context : Context} {payload : Bytes} {now : Calendar.Moment}

theorem runArchive_tree :
    (runArchive s context payload now t).tree = (archive s context payload now t).2 := by
  unfold runArchive
  dsimp only
  split
  · rfl
  · rfl

theorem runArchive_newFile (h : (runArchive s context payload now t).issued = some i) :
    NewFile t (runArchive s context payload now t).tree i.receipt.path i.payload := by
  rw [runArchive_tree]
  unfold runArchive at h
  dsimp only at h
  split at h
  · cases h
  next receipt hresult =>
    obtain rfl := Option.some.inj h
    exact archive_newFile s context payload now hresult

end Parts

namespace Operation

/-- **No operation loses a file.** -/
theorem run_keeps (t : FileTree) (op : Operation) : Keeps (op.logs t) t (op.run t).tree := by
  cases op with
  | ensureDir dir => exact (ensureDir_adds t dir).keeps
  | claim base name limit => exact runClaim_keeps base name limit t
  | store base name limit payload => exact runStore_keeps base name limit payload t
  | writer base name limit pieces ending =>
      exact runWriter_keeps base name limit pieces ending t
  | archive s context payload now =>
      have hkeeps := archive_keeps s context payload now t
      rw [← runArchive_tree] at hkeeps
      exact hkeeps
  | loadOrInit e => exact Settings.loadOrInit_keeps e t
  | commandLine e now args => exact CommandLine.run_keeps e now t args
  | log e lines =>
      simp only [logs, run]
      exact writeLog_keeps e lines t
  | _ => exact Keeps.refl [] t

/-- **A receipt is for a new file.** -/
theorem run_newFile {t : FileTree} {op : Operation} {i : Issued} (h : (op.run t).issued = some i) :
    NewFile t (op.run t).tree i.receipt.path i.payload := by
  cases op with
  | claim base name limit =>
      have hnone : (runClaim base name limit t).issued = none := runClaim_issued
      have hsome : (runClaim base name limit t).issued = some i := h
      rw [hnone] at hsome
      cases hsome
  | store base name limit payload => exact runStore_newFile h
  | writer base name limit pieces ending => exact runWriter_newFile h
  | archive s context payload now => exact runArchive_newFile h
  | commandLine e now args => exact CommandLine.newFile_of_issued e now h
  | _ => cases h

end Operation

/-! ## Runs of operations -/

/-- Carries out operations one after the other. -/
def runAll (t : FileTree) : List Operation → FileTree × List Issued
  | [] => (t, [])
  | op :: rest =>
      let outcome := op.run t
      let (tree, issued) := runAll outcome.tree rest
      (tree, outcome.issued.toList ++ issued)

/-- The log files that operations may make longer. -/
def logsOf (t : FileTree) (ops : List Operation) : List Location := ops.flatMap (·.logs t)

theorem runAll_cons (t : FileTree) (op : Operation) (rest : List Operation) :
    runAll t (op :: rest) = ((runAll (op.run t).tree rest).1,
      (op.run t).issued.toList ++ (runAll (op.run t).tree rest).2) := rfl

theorem runAll_append (t : FileTree) (before after : List Operation) :
    runAll t (before ++ after) = ((runAll (runAll t before).1 after).1,
      (runAll t before).2 ++ (runAll (runAll t before).1 after).2) := by
  induction before generalizing t with
  | nil => rfl
  | cons op rest ih =>
      rw [List.cons_append, runAll_cons, runAll_cons, ih (op.run t).tree]
      simp only [List.append_assoc]

theorem logsOf_of_keeps {grown : List Location} {t t' : FileTree} (hkeeps : Keeps grown t t')
    (ops : List Operation) : logsOf t' ops = logsOf t ops := by
  unfold logsOf
  simp only [Operation.logs_of_keeps hkeeps]

/-- **No run loses a file.** -/
theorem runAll_keeps (t : FileTree) (ops : List Operation) :
    Keeps (logsOf t ops) t (runAll t ops).1 := by
  induction ops generalizing t with
  | nil => exact Keeps.refl _ t
  | cons op rest ih =>
      have hop := Operation.run_keeps t op
      have hrest := ih (op.run t).tree
      rw [logsOf_of_keeps hop] at hrest
      rw [runAll_cons]
      have hop' : Keeps (logsOf t (op :: rest)) t (op.run t).tree := hop.mono (by
        intro loc hloc
        exact List.mem_flatMap.2 ⟨op, List.mem_cons_self, hloc⟩)
      have hrest' : Keeps (logsOf t (op :: rest)) (op.run t).tree
          (runAll (op.run t).tree rest).1 := hrest.mono (by
        intro loc hloc
        obtain ⟨later, hlater, hmem⟩ := List.mem_flatMap.1 hloc
        exact List.mem_flatMap.2 ⟨later, List.mem_cons_of_mem op hlater, hmem⟩)
      exact hop'.trans hrest'

/-- A receipt of a run is the receipt of one of its operations. -/
theorem exists_of_mem_runAll {t : FileTree} {ops : List Operation} {i : Issued}
    (h : i ∈ (runAll t ops).2) :
    ∃ before op after, ops = before ++ op :: after ∧
      (op.run (runAll t before).1).issued = some i := by
  induction ops generalizing t with
  | nil => cases h
  | cons op rest ih =>
      rw [runAll_cons] at h
      rcases List.mem_append.1 h with hfirst | hlater
      · exact ⟨[], op, rest, rfl, Option.mem_toList.1 hfirst⟩
      · obtain ⟨before, later, after, hrest, hissued⟩ := ih hlater
        exact ⟨op :: before, later, after, by rw [hrest, List.cons_append], hissued⟩

/-- What a receipt of a run is for was not there at the start, and can be read in the end. -/
theorem issued_of_mem_runAll {t : FileTree} {ops : List Operation} {i : Issued}
    (h : i ∈ (runAll t ops).2) :
    t.node? (t.target i.receipt.path) = none ∧
      (runAll t ops).1.locate i.receipt.path = .ok (t.target i.receipt.path) ∧
      (t.target i.receipt.path ∉ logsOf t ops →
        (runAll t ops).1.contentOf i.receipt.path = .ok i.payload) := by
  obtain ⟨before, op, after, rfl, hissued⟩ := exists_of_mem_runAll h
  have hbefore := runAll_keeps t before
  have hnew := (Operation.run_newFile hissued).of_keeps hbefore
  -- From the operation on, the file is one of those that are kept.
  have hkept := runAll_keeps (op.run (runAll t before).1).tree after
  have hop := Operation.run_keeps (runAll t before).1 op
  rw [logsOf_of_keeps hop, logsOf_of_keeps hbefore] at hkept
  rw [runAll_append, runAll_cons]
  refine ⟨hnew.vacant, hkept.locate hnew.located, fun hnot => hnew.content hkept ?_⟩
  intro hmem
  obtain ⟨later, hlater, hloc⟩ := List.mem_flatMap.1 hmem
  have hlater' : later ∈ before ++ op :: after :=
    List.mem_append_right _ (List.mem_cons_of_mem op hlater)
  exact hnot (List.mem_flatMap.2 ⟨later, hlater', hloc⟩)

/-- No two receipts of a run are for the same file. -/
theorem issued_pairwise (t : FileTree) (ops : List Operation) :
    (runAll t ops).2.Pairwise fun i j => t.target i.receipt.path ≠ t.target j.receipt.path := by
  induction ops generalizing t with
  | nil => exact List.Pairwise.nil
  | cons op rest ih =>
      have hop := Operation.run_keeps t op
      have hrest := ih (op.run t).tree
      simp only [hop.target] at hrest
      rw [runAll_cons, List.pairwise_append]
      refine ⟨?_, hrest, ?_⟩
      · cases (op.run t).issued with
        | none => exact List.Pairwise.nil
        | some i => exact List.pairwise_singleton _ i
      · intro i hi j hj hsame
        -- The file of the first receipt is there when the second is given out.
        have hfile := (Operation.run_newFile (Option.mem_toList.1 hi)).file
        have hvacant := (issued_of_mem_runAll hj).1
        rw [hop.target, ← hsame, hfile] at hvacant
        cases hvacant

/-- **Main theorem.** Whatever comes after a run of operations leaves the files that are there as
they are, except that log files get longer, and gives out a receipt only for what was not there. So
no two receipts of a run are for the same file, and each file that is not a log file holds in the
end what its receipt was given out for. -/
theorem nothing_archived_is_lost (t : FileTree) (ops : List Operation) :
    (∀ op : Operation,
      Keeps (op.logs t) (runAll t ops).1 (op.run (runAll t ops).1).tree ∧
        ∀ i, (op.run (runAll t ops).1).issued = some i →
          (runAll t ops).1.pathExists i.receipt.path = false ∧
            (runAll t ops).1.node? (t.target i.receipt.path) = none) ∧
      ((runAll t ops).2.Pairwise fun i j => t.target i.receipt.path ≠ t.target j.receipt.path) ∧
      ∀ i ∈ (runAll t ops).2,
        (runAll t ops).1.locate i.receipt.path = .ok (t.target i.receipt.path) ∧
          (t.target i.receipt.path ∉ logsOf t ops →
            (runAll t ops).1.contentOf i.receipt.path = .ok i.payload) := by
  have hrun := runAll_keeps t ops
  refine ⟨?_, issued_pairwise t ops, fun i hi => (issued_of_mem_runAll hi).2⟩
  intro op
  have hop := Operation.run_keeps (runAll t ops).1 op
  rw [Operation.logs_of_keeps hrun] at hop
  refine ⟨hop, fun i hi => ?_⟩
  have hnew := Operation.run_newFile hi
  have hvacant := hnew.vacant
  rw [hrun.target] at hvacant
  exact ⟨hnew.unnamed, hvacant⟩

end MessageArchive.Archive
