import MessageArchive.Proofs.CommandLine.Keeping
import MessageArchive.Proofs.FileTree.Adding

set_option autoImplicit false

/-! # What a run makes

A run makes directories, its log file, and its settings file where the usual one is to be used and
is missing (`Own`). Reading the command line and the settings makes nothing else (`openLog_adds`,
`settings_adds`), and neither does a command that gives out no receipt (`Command.adds_of_no_receipt`).
So a run that fails has archived nothing, and one that archives has made one file besides
(`only_receipts_add_files`).

As the lines of the log are left out of a run, a log that is there already is among the files that
stay as they are. With its lines it gets longer, and so does a new one. No other file changes by them
(`Archive.writeLog_keeps`).
-/

namespace MessageArchive.CommandLine

open Archive (Issued NewFile)
open FileTree (Adds Keeps)

variable (e : Environment) (now : Calendar.Moment) (t : FileTree) (args : List String)

/-! ## The program's own files -/

/-- The settings are those of the usual file, and there is none. -/
def LacksSettings : Prop :=
  (∃ request, Request.ofArguments args = .ok request ∧ request.config = none) ∧
    t.pathExists e.configFile = false

/-- What a run may make for itself: directories, the log file with whatever lines are in it, and the
settings file with the standard settings where it is missing. -/
inductive Own (loc : Location) : Node → Prop
  | directory : Own loc .directory
  | log (content : Bytes) (place : loc = t.target e.logFile) : Own loc (.file content)
  | settings (lacking : LacksSettings e t args) (place : loc = t.target e.configFile) :
      Own loc (.file (Text.utf8 Settings.standard.toToml))

theorem openLog_adds : Adds (Own e t args) t (openLog e t) := by
  have hdirs : Adds (Own e t args) t (t.makeDirs e.logDir).2 :=
    (FileTree.makeDirs_adds t e.logDir).adds fun _ => .directory
  unfold openLog
  split
  next cause tried htried =>
    rw [htried] at hdirs
    exact hdirs
  next made hmade =>
    rw [hmade] at hdirs
    split
    · exact hdirs
    next touched htouched =>
      exact hdirs.trans (FileTree.touch_adds htouched (.log [] (hdirs.keeps.target e.logFile)))

variable {e t args}

/-- In a tree that has lost nothing, the settings file is made only where it was missing from the
start. -/
theorem loadOrInit_adds {request : Request} {ready : FileTree}
    (hargs : Request.ofArguments args = .ok request) (hconfig : request.config = none)
    (hkeeps : Keeps [] t ready) :
    Adds (Own e t args) ready (Settings.loadOrInit e ready).2 := by
  have hdirs : Adds (Own e t args) ready (ready.makeDirs e.configDir).2 :=
    (FileTree.makeDirs_adds ready e.configDir).adds fun _ => .directory
  unfold Settings.loadOrInit
  split
  next cause tried htried =>
    rw [htried] at hdirs
    exact hdirs
  next prepared hprepared =>
    rw [hprepared] at hdirs
    have hlater := hkeeps.trans hdirs.keeps
    split
    · exact hdirs
    next hmissing =>
      rw [Bool.not_eq_true] at hmissing
      have hlacks : LacksSettings e t args :=
        ⟨⟨request, hargs, hconfig⟩, hlater.not_exists hmissing⟩
      split
      · exact hdirs
      next made hmade =>
        exact hdirs.trans (FileTree.overwrite_adds hmissing hmade
          (.settings hlacks (hlater.target e.configFile)))

theorem settings_adds {request : Request} {ready : FileTree}
    (hargs : Request.ofArguments args = .ok request) (hkeeps : Keeps [] t ready) :
    Adds (Own e t args) ready (settings e request.config ready).2 := by
  cases hconfig : request.config with
  | some path => exact .refl _ ready
  | none => exact loadOrInit_adds hargs hconfig hkeeps

/-! ## Commands -/

/-- A command that gives out no receipt makes directories at most. -/
theorem Command.adds_of_no_receipt {new : Location → Node → Prop} (hnew : ∀ l, new l .directory)
    {s : Settings} {ready : FileTree} {c : Command} (h : c.issued? now s ready = none) :
    Adds new ready (c.run s now ready).2 := by
  cases c with
  | resolve message template baseDir strict => exact .refl new ready
  | checksum path expected => exact .refl new ready
  | archive message payload baseDir template strict audit =>
      cases hmessage : Message.load ready message with
      | error cause =>
          simp only [Command.run, runArchive, hmessage]
          exact .refl new ready
      | ok m =>
          cases hpayload : ready.contentOf payload with
          | error cause =>
              simp only [Command.run, runArchive, hmessage, hpayload]
              exact .refl new ready
          | ok content =>
              rw [Command.run_archive now hmessage hpayload]
              simp only [Command.issued?, hmessage, hpayload] at h
              obtain ⟨prepared, hadds, hspec⟩ := Archive.archive_spec
                (adjust s baseDir template strict) m.context content now ready
              split at h
              · cases h
              next cause hresult =>
                rw [hresult] at hspec
                dsimp only at hspec ⊢
                rw [hspec]
                exact hadds.adds hnew

/-- A command that gives out a receipt makes the file that it tells of, and directories. -/
theorem Command.archived_of_receipt {s : Settings} {ready : FileTree} {c : Command} {i : Issued}
    (h : c.issued? now s ready = some i) :
    ∃ changed, Archive.Archived changed i.payload ready (c.run s now ready).2 i.receipt := by
  obtain ⟨message, payload, baseDir, template, strict, audit, m, rfl, hmessage, hpayload,
    hresult⟩ := Command.archived_of_issued now h
  obtain ⟨prepared, hadds, hspec⟩ := Archive.archive_spec
    (adjust s baseDir template strict) m.context i.payload now ready
  rw [hresult] at hspec
  rw [Command.run_archive now hmessage hpayload]
  exact ⟨_, Archive.archived_of_stored _ _ hadds hspec.1 hspec.2⟩

theorem adds_of_archived {new : Location → Node → Prop} {s : Settings} {ready after : FileTree}
    {content : Bytes} {receipt : Archive.Receipt}
    (h : Archive.Archived s content ready after receipt) (hnew : ∀ l, new l .directory)
    (hfile : new (ready.target receipt.path) (.file content)) : Adds new ready after := by
  refine ⟨h.workingDir, fun l => ?_⟩
  by_cases hl : l = ready.target receipt.path
  · subst hl
    exact Or.inr ⟨h.newFile.vacant, _, h.newFile.file, hfile⟩
  · rcases h.others l hl with hsame | ⟨hnone, hdir, -⟩
    · exact Or.inl hsame
    · exact Or.inr ⟨hnone, _, hdir, hnew l⟩

/-! ### How a command ends -/

/-- A report of something that was tried, well or not. -/
def Report.Tried (r : Report) : Prop := ∀ cause, r.ending ≠ .refused cause

theorem Report.tried_done (lines : List String) : Report.Tried ⟨lines, .done⟩ :=
  fun _ h => nomatch h

theorem Report.tried_failed (lines : List String) (cause : Failure) :
    Report.Tried ⟨lines, .failed cause⟩ :=
  fun _ h => nomatch h

theorem runResolve_tried (s : Settings) (message : Path) (template : Option String)
    (baseDir : Option Path) (ready : FileTree) :
    (runResolve s message template baseDir now ready).Tried := by
  unfold runResolve
  split
  · exact Report.tried_failed _ _
  · dsimp only
    split
    · exact Report.tried_failed _ _
    · unfold showPath
      split
      · exact Report.tried_done _
      · split
        · exact Report.tried_failed _ _
        · exact Report.tried_done _

theorem runArchive_tried (s : Settings) (message payload : Path) (audit : Bool)
    (ready : FileTree) : (runArchive s message payload audit now ready).1.Tried := by
  unfold runArchive
  split
  · exact Report.tried_failed _ _
  · split
    · exact Report.tried_failed _ _
    · dsimp only
      unfold archiveReport
      dsimp only
      split
      · exact Report.tried_failed _ _
      · exact Report.tried_done _

theorem runChecksum_tried (path : Path) (expected : Option String) (ready : FileTree) :
    (runChecksum path expected ready).Tried := by
  unfold runChecksum
  split
  · exact Report.tried_failed _ _
  · dsimp only
    split
    · exact Report.tried_done _
    · split
      · exact Report.tried_done _
      · exact Report.tried_failed _ _

theorem Command.run_tried (s : Settings) (ready : FileTree) (c : Command) :
    (c.run s now ready).1.Tried := by
  cases c with
  | resolve message template baseDir strict => exact runResolve_tried now _ _ _ _ _
  | archive message payload baseDir template strict audit => exact runArchive_tried now _ _ _ _ _
  | checksum path expected => exact runChecksum_tried _ _ _

theorem Request.run_tried (e : Environment) (ready : FileTree) (request : Request) :
    (request.run e now ready).1.Tried := by
  unfold Request.run
  split
  · exact Report.tried_failed _ _
  · exact Command.run_tried now _ _ _

theorem Report.Tried.exitCode_eq_zero {r : Report} (h : r.Tried) (hzero : r.ending.exitCode = 0) :
    r.ending = .done := by
  cases hending : r.ending with
  | done => rfl
  | failed cause => rw [hending] at hzero; cases hzero
  | refused cause => exact absurd hending (h cause)

/-! ## Whole runs -/

/-- A run with a request makes what it makes for itself, and then either ends without settings or
goes on with the command. -/
theorem run_of_request {request : Request} (hargs : Request.ofArguments args = .ok request) :
    ∃ ready, Adds (Own e t args) t ready ∧
      ((∃ cause, run e now t args = (⟨[], .failed (.noSettings cause)⟩, ready) ∧
          issued? e now t args = none) ∨
        ∃ s, run e now t args = request.command.run s now ready ∧
          issued? e now t args = request.command.issued? now s ready) := by
  have hlog := openLog_adds e t args
  have hsettings : Adds (Own e t args) (openLog e t) (settings e request.config (openLog e t)).2 :=
    settings_adds hargs hlog.keeps
  refine ⟨_, hlog.trans hsettings, ?_⟩
  cases hread : settings e request.config (openLog e t) with
  | mk read ready =>
      cases read with
      | error cause => exact Or.inl ⟨cause, by simp [run, issued?, hargs, Request.run, hread]⟩
      | ok s => exact Or.inr ⟨s, by simp [run, issued?, hargs, Request.run, hread]⟩

/-- A run that gives out no receipt makes nothing but what it makes for itself. -/
theorem run_adds_of_no_receipt (h : issued? e now t args = none) :
    Adds (Own e t args) t (run e now t args).2 := by
  cases hargs : Request.ofArguments args with
  | error refusal =>
      simp only [run, hargs]
      exact openLog_adds e t args
  | ok request =>
      obtain ⟨ready, hadds, ⟨cause, hrun, -⟩ | ⟨s, hrun, hissued⟩⟩ :=
        run_of_request (e := e) (t := t) now hargs
      · rw [hrun]
        exact hadds
      · rw [hrun]
        rw [hissued] at h
        exact hadds.trans (Command.adds_of_no_receipt now (fun _ => .directory) h)

variable (e t args)

/-- The arguments ask for the payload to be archived. -/
def AskToArchive (payload : Path) : Prop :=
  ∃ request message baseDir template strict audit, Request.ofArguments args = .ok request ∧
    request.command = .archive message payload baseDir template strict audit

/-- The run has archived the payload in one file, and has told of it. -/
structure ArchivedOne (payload : Path) (report : Report) (after : FileTree) (i : Issued) :
    Prop where
  shown : report.lines.getLast? = some (receiptLine i.receipt)
  newFile : NewFile t after i.receipt.path i.payload
  stored : after.contentOf i.receipt.path = .ok i.payload
  bytes : i.receipt.bytes = i.payload.length
  sha256 : i.receipt.sha256 = Archive.hexDigest (Digest.Sha256.digest i.payload)
  /-- It is the content of the payload file, -/
  read : after.contentOf payload = .ok i.payload
  /-- and was so at the start if there was one. -/
  before : ∀ content, t.contentOf payload = .ok content → content = i.payload
  /-- No other file has been made, except the program's own. -/
  adds : Adds
    (fun l node => Own e t args l node ∨ l = t.target i.receipt.path ∧ node = .file i.payload)
    t after

variable {e t args}

/-- Only a run that was asked to archive gives out a receipt. -/
theorem asked_of_issued {i : Issued} (h : issued? e now t args = some i) :
    ∃ payload, AskToArchive args payload := by
  cases hargs : Request.ofArguments args with
  | error refusal => simp [issued?, hargs] at h
  | ok request =>
      obtain ⟨ready, -, ⟨cause, -, hnone⟩ | ⟨s, -, hissued⟩⟩ :=
        run_of_request (e := e) (t := t) now hargs
      · rw [hnone] at h
        cases h
      · obtain ⟨message, payload, baseDir, template, strict, audit, -, hcommand, -⟩ :=
          Command.archived_of_issued now (hissued ▸ h)
        exact ⟨payload, request, message, baseDir, template, strict, audit, hargs, hcommand⟩

theorem archivedOne_of_issued {i : Issued} {payload : Path} (hask : AskToArchive args payload)
    (h : issued? e now t args = some i) :
    ArchivedOne e t args payload (run e now t args).1 (run e now t args).2 i := by
  obtain ⟨request, message, baseDir, template, strict, audit, hargs, hcommand⟩ := hask
  obtain ⟨ready, hadds, ⟨cause, -, hnone⟩ | ⟨s, hrun, hissued⟩⟩ :=
    run_of_request (e := e) (t := t) now hargs
  · rw [hnone] at h
    cases h
  have hnew := newFile_of_issued e now h
  obtain ⟨message', payload', baseDir', template', strict', audit', m, hcommand', -, hpayload, -⟩ :=
    Command.archived_of_issued now (hissued ▸ h)
  obtain rfl : payload = payload' := by
    rw [hcommand] at hcommand'
    cases hcommand'
    rfl
  obtain ⟨changed, harchived⟩ := Command.archived_of_receipt now (hissued ▸ h)
  rw [← hrun] at harchived
  have hafter : Adds
      (fun l node => Own e t args l node ∨ l = t.target i.receipt.path ∧ node = .file i.payload)
      ready (run e now t args).2 :=
    adds_of_archived harchived (fun _ => Or.inl .directory)
      (Or.inr ⟨hadds.keeps.target i.receipt.path, rfl⟩)
  refine ⟨(run_shows_issued e now h).2, hnew, harchived.content, harchived.bytes,
    harchived.sha256, hafter.keeps.contentOf hpayload, fun content hcontent => ?_,
    (hadds.mono fun _ _ => Or.inl).trans hafter⟩
  have hread := hadds.keeps.contentOf hcontent
  rw [hpayload] at hread
  exact (Except.ok.inj hread).symm

/-- **Main theorem.** A run that fails has archived nothing: all that is new is what a run makes for
itself. A run that was asked to archive and ends well has made one file besides, with the content of
the payload file, and shows its receipt last. A run that was not asked to archive has made nothing
besides, however it ends. -/
theorem only_receipts_add_files (e : Environment) (now : Calendar.Moment) (t : FileTree)
    (args : List String) :
    ((run e now t args).1.ending.exitCode ≠ 0 → Adds (Own e t args) t (run e now t args).2) ∧
    (∀ payload, AskToArchive args payload → (run e now t args).1.ending.exitCode = 0 →
      ∃ i, ArchivedOne e t args payload (run e now t args).1 (run e now t args).2 i) ∧
    ((∀ payload, ¬AskToArchive args payload) → Adds (Own e t args) t (run e now t args).2) := by
  refine ⟨fun hfailed => ?_, fun payload hask hdone => ?_, fun hother => ?_⟩
  · refine run_adds_of_no_receipt now (Option.eq_none_iff_forall_ne_some.2 fun i hissued => ?_)
    rw [(run_shows_issued e now hissued).1] at hfailed
    exact hfailed rfl
  · obtain ⟨request, message, baseDir, template, strict, audit, hargs, hcommand⟩ := id hask
    have htried : (run e now t args).1.Tried := by
      simp only [run, hargs]
      exact Request.run_tried now e _ request
    obtain ⟨i, hissued⟩ :=
      (issued_iff_done e now hargs hcommand).2 (htried.exitCode_eq_zero hdone)
    exact ⟨i, archivedOne_of_issued now hask hissued⟩
  · refine run_adds_of_no_receipt now (Option.eq_none_iff_forall_ne_some.2 fun i hissued => ?_)
    obtain ⟨payload, hask⟩ := asked_of_issued now hissued
    exact hother payload hask

/-- A tree with settings, a message and a payload, and with a directory in which the name that the
settings give is taken. -/
def taskTree : FileTree where
  entries := [(["c"], .file (Text.utf8 "archive_base_dir='d'\narchive_file='a'\nextension=''")),
    (["m"], .file (Text.utf8 "id='x'")), (["p"], .file [1]), (["d"], .directory),
    (["a", "d"], .file [])]

/-- An environment without any of the program's own files in that tree. -/
def taskHome : Environment where
  home := ⟨"/h"⟩

/-- The arguments that ask for the payload of that tree to be archived. -/
def taskArgs : List String := ["archive", "--config", "/c", "--message", "/m", "--payload", "/p"]

/-- The moment of the run. -/
def taskMoment : Calendar.Moment where
  instant := { seconds := 0 }

theorem taskArgs_ask : AskToArchive taskArgs ⟨"/p"⟩ :=
  ⟨⟨some ⟨"/c"⟩, .archive ⟨"/m"⟩ ⟨"/p"⟩ none none false false⟩, ⟨"/m"⟩, none, none, false, false,
    rfl, rfl⟩

theorem run_taskArgs : (run taskHome taskMoment taskTree taskArgs).1.ending.exitCode = 0 := by
  decide +kernel

theorem only_receipts_add_files_taskTree :
    AskToArchive taskArgs ⟨"/p"⟩ ∧
      (run taskHome taskMoment taskTree taskArgs).1.ending.exitCode = 0 ∧
      ∃ i, ArchivedOne taskHome taskTree taskArgs ⟨"/p"⟩
        (run taskHome taskMoment taskTree taskArgs).1 (run taskHome taskMoment taskTree taskArgs).2
        i :=
  ⟨taskArgs_ask, run_taskArgs,
    (only_receipts_add_files taskHome taskMoment taskTree taskArgs).2.1 ⟨"/p"⟩ taskArgs_ask
      run_taskArgs⟩

end MessageArchive.CommandLine
