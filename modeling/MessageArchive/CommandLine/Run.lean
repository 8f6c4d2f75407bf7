import MessageArchive.Archive.Archiver
import MessageArchive.CommandLine.Arguments
import MessageArchive.CommandLine.Failure
import MessageArchive.Envelope

set_option autoImplicit false

/-! # Runs

A run takes a command line to the lines it shows, the way it ends, and the file tree it leaves. The
log file is made first, whatever the command line says. Then come the settings, which are made where
they are missing, and then the command. What has been shown before a failure stays shown.

The lines that are written to the log, which tell of times and of what is done, are left out of a
run: a log that is there stays as it is, a log that is made stays empty, and a command that reads
the log of its own run finds it so. Lines for a log are written by an operation of their own
(`Operation.log` in `Proofs/Archive/Preservation.lean`), which may come at any place among others.
-/

namespace MessageArchive.CommandLine

/-- How a run ends. -/
inductive Ending where
  | done
  | failed (cause : Failure)
  /-- The command line asks for nothing that can be done. -/
  | refused (cause : Refusal)
  deriving DecidableEq, Repr

/-- The number that tells the caller of the program how the run ended. -/
def Ending.exitCode : Ending → Nat
  | .done => 0
  | .failed _ => 1
  | .refused .help => 0
  | .refused .usage => 2

/-- The failure as it is shown. -/
def Ending.error? : Ending → Option String
  | .failed cause => some ("msgarc error: " ++ cause.text)
  | _ => none

/-- What a run shows. -/
structure Report where
  lines : List String
  ending : Ending
  deriving DecidableEq, Repr

/-- The lines, each with its end. -/
def Report.output (r : Report) : String := String.join (r.lines.map (· ++ "\n"))

/-! ## Commands -/

/-- The settings with the options of a command put in their place. -/
def adjust (s : Settings) (baseDir : Option Path) (template : Option String) (strict : Bool) :
    Settings :=
  { s with
    baseDir := baseDir.getD s.baseDir
    fileName := template.getD s.fileName
    missingProperty := if strict then .fail else s.missingProperty }

/-- Shows the path that is free for a name. -/
def showPath (s : Settings) (name : String) (t : FileTree) : Option Path → Report
  | none => ⟨[name], .done⟩
  | some dir =>
      match Archive.uniquePath t dir name s.maxUniqueAttempts with
      | .error e => ⟨[name], .failed (.noPath e)⟩
      | .ok path => ⟨[name, path.text], .done⟩

/-- Shows the name of a message, and with a directory the path that is free there. -/
def runResolve (s : Settings) (message : Path) (template : Option String) (baseDir : Option Path)
    (now : Calendar.Moment) (t : FileTree) : Report :=
  match Message.load t message with
  | .error e => ⟨[], .failed (.noMessage e)⟩
  | .ok m =>
      let template := template.getD s.template
      match (Template.resolve s.missingProperty template m.context now).result with
      | .error e => ⟨[], .failed (.noName template m.id e)⟩
      | .ok name => showPath s name t baseDir

/-- An entry of the audit trail as it is shown. -/
def entryLine (e : Audit.Entry) : String := "[" ++ e.status.text ++ "] " ++ e.text

/-- A receipt as it is shown. -/
def receiptLine (r : Archive.Receipt) : String :=
  r.path.text ++ "  " ++ toString r.bytes ++ " bytes  sha256 " ++ r.sha256

/-- What is shown of a message that is archived, or is not. -/
def archiveReport (messageId : String) (audit : Bool) (work : Audit.Traced Archive.Receipt) :
    Report :=
  let trail := if audit then (Audit.entries messageId work.trail).map entryLine else []
  match work.result with
  | .error e => ⟨trail, .failed (.notArchived messageId e)⟩
  | .ok receipt => ⟨trail ++ [receiptLine receipt], .done⟩

/-- Archives a payload, and shows the receipt. -/
def runArchive (s : Settings) (message payload : Path) (audit : Bool) (now : Calendar.Moment)
    (t : FileTree) : Report × FileTree :=
  match Message.load t message with
  | .error e => (⟨[], .failed (.noMessage e)⟩, t)
  | .ok m =>
      match t.contentOf payload with
      | .error cause => (⟨[], .failed (.noPayload payload cause)⟩, t)
      | .ok content =>
          let (work, tree) := Archive.archive s m.context content now t
          (archiveReport m.id audit work, tree)

/-- Shows the digest of a file, and compares it with an expected one. -/
def runChecksum (path : Path) (expected : Option String) (t : FileTree) : Report :=
  match Archive.checksum t path with
  | .error e => ⟨[], .failed (.noDigest e)⟩
  | .ok digest =>
      let line := digest ++ "  " ++ path.text
      match expected with
      | none => ⟨[line], .done⟩
      | some expected =>
          if Archive.sameDigest digest expected then ⟨[line], .done⟩
          else ⟨[line], .failed (.mismatch path expected)⟩

/-- Carries out a command. -/
def Command.run (s : Settings) (now : Calendar.Moment) (t : FileTree) :
    Command → Report × FileTree
  | .resolve message template baseDir strict =>
      (runResolve (adjust s none none strict) message template baseDir now t, t)
  | .archive message payload baseDir template strict audit =>
      runArchive (adjust s baseDir template strict) message payload audit now t
  | .checksum path expected => (runChecksum path expected t, t)

/-! ## The whole run -/

/-- Makes the log file where it is missing, and writes no line to it. A run goes on without one. -/
def openLog (e : Environment) (t : FileTree) : FileTree :=
  match t.makeDirs e.logDir with
  | (.error _, tried) => tried
  | (.ok (), made) =>
      match made.touch e.logFile with
      | .error _ => made
      | .ok touched => touched

/-- The settings of a run: those of the file that is named, and else the usual ones. -/
def settings (e : Environment) (config : Option Path) (t : FileTree) :
    Except SettingsError Settings × FileTree :=
  match config with
  | some path => ((Settings.load t path).mapError .unread, t)
  | none => Settings.loadOrInit e t

/-- Carries out a request. -/
def Request.run (e : Environment) (now : Calendar.Moment) (t : FileTree) (r : Request) :
    Report × FileTree :=
  match settings e r.config t with
  | (.error cause, tree) => (⟨[], .failed (.noSettings cause)⟩, tree)
  | (.ok s, tree) => r.command.run s now tree

/-- Carries out a command line. -/
def run (e : Environment) (now : Calendar.Moment) (t : FileTree) (args : List String) :
    Report × FileTree :=
  match Request.ofArguments args with
  | .error refusal => (⟨[], .refused refusal⟩, openLog e t)
  | .ok request => request.run e now (openLog e t)

end MessageArchive.CommandLine
