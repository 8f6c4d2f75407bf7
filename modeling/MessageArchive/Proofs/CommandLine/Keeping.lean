import MessageArchive.CommandLine.Run
import MessageArchive.Proofs.Archive.AllOrNothing

set_option autoImplicit false

/-! # Command lines lose nothing

A run makes its log file and its settings file where they are missing, and may archive a payload. It
leaves the files that were there as they were (`run_keeps`), the lines of its log being left out. The
receipt that a run shows is the one `issued?` gives (`run_shows_issued`), and what it tells of is new
(`newFile_of_issued`).
-/

namespace MessageArchive

open FileTree (Keeps)

/-- Settings are written only where nothing is. -/
theorem Settings.loadOrInit_keeps (e : Environment) (t : FileTree) :
    Keeps [] t (Settings.loadOrInit e t).2 := by
  have hdirs : Keeps [] t (t.makeDirs e.configDir).2 :=
    (FileTree.makeDirs_adds t e.configDir).keeps
  unfold Settings.loadOrInit
  split
  next cause tried htried =>
    rw [htried] at hdirs
    exact hdirs
  next ready hready =>
    rw [hready] at hdirs
    split
    · exact hdirs
    next hmissing =>
      rw [Bool.not_eq_true] at hmissing
      split
      · exact hdirs
      next made hmade => exact hdirs.trans (FileTree.overwrite_keeps hmissing hmade)

namespace CommandLine

open Archive (Issued NewFile)

variable (e : Environment) (now : Calendar.Moment)

/-! ## Log and settings -/

theorem openLog_keeps (t : FileTree) : Keeps [] t (openLog e t) := by
  have hdirs : Keeps [] t (t.makeDirs e.logDir).2 := (FileTree.makeDirs_adds t e.logDir).keeps
  unfold openLog
  split
  next cause tried htried =>
    rw [htried] at hdirs
    exact hdirs
  next made hmade =>
    rw [hmade] at hdirs
    split
    · exact hdirs
    next touched htouched => exact hdirs.trans (FileTree.touch_keeps htouched)

theorem settings_keeps (config : Option Path) (t : FileTree) :
    Keeps [] t (settings e config t).2 := by
  cases config with
  | none => exact Settings.loadOrInit_keeps e t
  | some path => exact Keeps.refl [] t

/-! ## Commands -/

theorem Command.run_keeps (s : Settings) (t : FileTree) (c : Command) :
    Keeps [] t (c.run s now t).2 := by
  cases c with
  | resolve message template baseDir strict => exact Keeps.refl [] t
  | checksum path expected => exact Keeps.refl [] t
  | archive message payload baseDir template strict audit =>
      show Keeps [] t (runArchive (adjust s baseDir template strict) message payload audit now t).2
      unfold runArchive
      split
      · exact Keeps.refl [] t
      · split
        · exact Keeps.refl [] t
        next content _ => exact Archive.archive_keeps _ _ content now t

/-- The receipt that a command gives out. -/
def Command.issued? (s : Settings) (t : FileTree) : Command → Option Issued
  | .archive message payload baseDir template strict _ =>
      match Message.load t message, t.contentOf payload with
      | .ok m, .ok content =>
          let s := adjust s baseDir template strict
          match (Archive.archive s m.context content now t).1.result with
          | .ok receipt => some ⟨receipt, content⟩
          | .error _ => none
      | _, _ => none
  | _ => none

/-- A command that gives out a receipt has archived the payload it is for. -/
theorem Command.archived_of_issued {s : Settings} {t : FileTree} {c : Command} {i : Issued}
    (h : c.issued? now s t = some i) :
    ∃ message payload baseDir template strict audit m,
      c = .archive message payload baseDir template strict audit ∧
      Message.load t message = .ok m ∧ t.contentOf payload = .ok i.payload ∧
      (Archive.archive (adjust s baseDir template strict) m.context i.payload now t).1.result =
        .ok i.receipt := by
  cases c with
  | resolve message template baseDir strict => cases h
  | checksum path expected => cases h
  | archive message payload baseDir template strict audit =>
      simp only [Command.issued?] at h
      split at h
      next m content hmessage hpayload =>
        split at h
        next receipt hresult =>
          obtain rfl := Option.some.inj h
          exact ⟨message, payload, baseDir, template, strict, audit, m, rfl, hmessage, hpayload,
            hresult⟩
        · cases h
      · cases h

theorem Command.run_archive {s : Settings} {t : FileTree} {message payload : Path}
    {baseDir : Option Path} {template : Option String} {strict audit : Bool} {m : Message}
    {content : Bytes} (hmessage : Message.load t message = .ok m)
    (hpayload : t.contentOf payload = .ok content) :
    (Command.archive message payload baseDir template strict audit).run s now t =
      (archiveReport m.id audit
          (Archive.archive (adjust s baseDir template strict) m.context content now t).1,
        (Archive.archive (adjust s baseDir template strict) m.context content now t).2) := by
  show runArchive (adjust s baseDir template strict) message payload audit now t = _
  unfold runArchive
  rw [hmessage]
  dsimp only
  rw [hpayload]

/-- The receipt is what the command shows last. -/
theorem Command.run_shows_issued {s : Settings} {t : FileTree} {c : Command} {i : Issued}
    (h : c.issued? now s t = some i) :
    (c.run s now t).1.ending = .done ∧
      (c.run s now t).1.lines.getLast? = some (receiptLine i.receipt) := by
  obtain ⟨message, payload, baseDir, template, strict, audit, m, rfl, hmessage, hpayload,
    hresult⟩ := Command.archived_of_issued now h
  rw [Command.run_archive now hmessage hpayload]
  unfold archiveReport
  rw [hresult]
  exact ⟨rfl, List.getLast?_concat⟩

/-- An archive command gives out a receipt exactly when it ends well. -/
theorem Command.issued_iff_done {s : Settings} {t : FileTree} {message payload : Path}
    {baseDir : Option Path} {template : Option String} {strict audit : Bool} :
    (∃ i, (Command.archive message payload baseDir template strict audit).issued? now s t = some i) ↔
      ((Command.archive message payload baseDir template strict audit).run s now t).1.ending =
        .done := by
  constructor
  · rintro ⟨i, hissued⟩
    exact (Command.run_shows_issued now hissued).1
  · intro hdone
    cases hmessage : Message.load t message with
    | error cause =>
        simp [Command.run, runArchive, hmessage] at hdone
    | ok m =>
        cases hpayload : t.contentOf payload with
        | error cause =>
            simp [Command.run, runArchive, hmessage, hpayload] at hdone
        | ok content =>
            rw [Command.run_archive now hmessage hpayload] at hdone
            simp only [Command.issued?, hmessage, hpayload]
            cases hresult : (Archive.archive (adjust s baseDir template strict) m.context content
                now t).1.result with
            | error cause => simp [archiveReport, hresult] at hdone
            | ok receipt => exact ⟨_, rfl⟩

theorem Command.newFile_of_issued {s : Settings} {t : FileTree} {c : Command} {i : Issued}
    (h : c.issued? now s t = some i) :
    NewFile t (c.run s now t).2 i.receipt.path i.payload := by
  obtain ⟨message, payload, baseDir, template, strict, audit, m, rfl, hmessage, hpayload,
    hresult⟩ := Command.archived_of_issued now h
  rw [Command.run_archive now hmessage hpayload]
  exact Archive.archive_newFile _ _ _ _ hresult

/-! ## Whole runs -/

/-- The receipt that a run gives out. -/
def issued? (t : FileTree) (args : List String) : Option Issued :=
  match Request.ofArguments args with
  | .error _ => none
  | .ok request =>
      match settings e request.config (openLog e t) with
      | (.error _, _) => none
      | (.ok s, ready) => request.command.issued? now s ready

theorem run_keeps (t : FileTree) (args : List String) : Keeps [] t (run e now t args).2 := by
  have hlog := openLog_keeps e t
  unfold run
  split
  · exact hlog
  next request _ =>
    have hsettings := settings_keeps e request.config (openLog e t)
    unfold Request.run
    split
    next cause tree hread =>
      rw [hread] at hsettings
      exact hlog.trans hsettings
    next s tree hread =>
      rw [hread] at hsettings
      exact hlog.trans (hsettings.trans (Command.run_keeps now s tree request.command))

/-- A run that gives out a receipt is the run of a command on a tree that has lost nothing. -/
theorem command_of_issued {t : FileTree} {args : List String} {i : Issued}
    (h : issued? e now t args = some i) :
    ∃ (s : Settings) (ready : FileTree) (c : Command), Keeps [] t ready ∧
      c.issued? now s ready = some i ∧ run e now t args = c.run s now ready := by
  have hlog := openLog_keeps e t
  unfold issued? at h
  cases hargs : Request.ofArguments args with
  | error refusal =>
      rw [hargs] at h
      cases h
  | ok request =>
      have hsettings := settings_keeps e request.config (openLog e t)
      rw [hargs] at h
      dsimp only at h
      split at h
      · cases h
      next s ready hread =>
        rw [hread] at hsettings
        refine ⟨s, ready, request.command, hlog.trans hsettings, h, ?_⟩
        simp only [run, hargs, Request.run, hread]

/-- The receipt is what a run shows last. -/
theorem run_shows_issued {t : FileTree} {args : List String} {i : Issued}
    (h : issued? e now t args = some i) :
    (run e now t args).1.ending = .done ∧
      (run e now t args).1.lines.getLast? = some (receiptLine i.receipt) := by
  obtain ⟨s, ready, c, -, hissued, hrun⟩ := command_of_issued e now h
  rw [hrun]
  exact Command.run_shows_issued now hissued

/-- The run of an archive command gives out a receipt exactly when it ends well. -/
theorem issued_iff_done {t : FileTree} {args : List String} {request : Request}
    {message payload : Path} {baseDir : Option Path} {template : Option String}
    {strict audit : Bool} (hargs : Request.ofArguments args = .ok request)
    (hcommand : request.command = .archive message payload baseDir template strict audit) :
    (∃ i, issued? e now t args = some i) ↔ (run e now t args).1.ending = .done := by
  simp only [issued?, run, hargs, Request.run]
  cases hread : settings e request.config (openLog e t) with
  | mk read ready =>
      cases read with
      | error cause => simp
      | ok s =>
          simp only [hcommand]
          exact Command.issued_iff_done now

theorem newFile_of_issued {t : FileTree} {args : List String} {i : Issued}
    (h : issued? e now t args = some i) :
    NewFile t (run e now t args).2 i.receipt.path i.payload := by
  obtain ⟨s, ready, c, hkeeps, hissued, hrun⟩ := command_of_issued e now h
  rw [hrun]
  exact (Command.newFile_of_issued now hissued).of_keeps hkeeps

end CommandLine

end MessageArchive
