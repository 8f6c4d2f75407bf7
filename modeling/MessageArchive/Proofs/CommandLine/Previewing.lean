import MessageArchive.Proofs.Archive.Previewing
import MessageArchive.Proofs.CommandLine.Housekeeping

set_option autoImplicit false

/-! # Command lines that tell beforehand

A command line that resolves a message shows the path that is free for it, and one that archives the
message makes a file. Two such command lines come to the same settings and the same tree before their
commands begin (`archive_of_done`, `run_resolving`), so what was found about previews holds of them
as well (`preview_and_resolve_agree`).
-/

namespace MessageArchive.CommandLine

open Archive (Foretold SameName previewPath resolveName candidate)
open FileTree (Adds Keeps)

/-! ## Command lines -/

/-- A message with its payload, and how it is to be archived: nothing takes the place of the
template. -/
structure Task where
  config : Option Path
  message : Path
  payload : Path
  baseDir : Option Path
  strict : Bool
  audit : Bool

/-- The request to archive the payload. -/
def Task.archiving (k : Task) : Request :=
  ⟨k.config, .archive k.message k.payload k.baseDir none k.strict k.audit⟩

/-- The request to show the name, and the path in a directory. -/
def Task.resolving (k : Task) (dir : Path) : Request :=
  ⟨k.config, .resolve k.message none (some dir) k.strict⟩

/-- The settings that both requests are carried out with, but for the directory, and the tree. -/
def Task.Loads (e : Environment) (t : FileTree) (k : Task) (s : Settings) (ready : FileTree) :
    Prop :=
  ∃ loaded, settings e k.config (openLog e t) = (.ok loaded, ready) ∧
    s = adjust loaded k.baseDir none k.strict

variable {e : Environment} {t ready : FileTree} {k : Task} {s : Settings} {dir : Path}
  {now now' : Calendar.Moment} {args : List String}

theorem Task.Loads.keeps (h : k.Loads e t s ready) : Keeps [] t ready := by
  obtain ⟨loaded, hloaded, -⟩ := h
  have hsettings := settings_keeps e k.config (openLog e t)
  rw [hloaded] at hsettings
  exact (openLog_keeps e t).trans hsettings

/-- A run that archives has loaded settings and a message, and ends with the receipt. -/
theorem archive_of_done (hargs : Request.ofArguments args = .ok k.archiving)
    (hdone : (run e now t args).1.ending.exitCode = 0) :
    ∃ s ready m content receipt, k.Loads e t s ready ∧ Message.load ready k.message = .ok m ∧
      (Archive.archive s m.context content now ready).1.result = .ok receipt ∧
      (run e now t args).1.lines.getLast? = some (receiptLine receipt) := by
  simp only [run, hargs, Request.run] at hdone ⊢
  cases hread : settings e k.archiving.config (openLog e t) with
  | mk read ready =>
      cases read with
      | error cause =>
          simp only [hread, Ending.exitCode] at hdone
          cases hdone
      | ok loaded =>
          simp only [hread] at hdone ⊢
          have hending := (Command.run_tried now loaded ready k.archiving.command).exitCode_eq_zero
            hdone
          obtain ⟨i, hissued⟩ := (Command.issued_iff_done now).2 hending
          obtain ⟨message, payload, baseDir, template, strict, audit, m, hcommand, hmessage, -,
            hresult⟩ := Command.archived_of_issued now hissued
          cases hcommand
          exact ⟨_, ready, m, i.payload, i.receipt, ⟨loaded, hread, rfl⟩, hmessage, hresult,
            (Command.run_shows_issued now hissued).2⟩

/-- The run that resolves comes to the same settings and the same tree. -/
theorem run_resolving (hargs : Request.ofArguments args = .ok (k.resolving dir))
    (hloads : k.Loads e t s ready) :
    (run e now t args).1 = runResolve s k.message none (some dir) now ready := by
  obtain ⟨loaded, hloaded, rfl⟩ := hloads
  have hread : settings e (k.resolving dir).config (openLog e t) = (.ok loaded, ready) := hloaded
  simp only [run, hargs, Request.run, hread]
  rfl

theorem runResolve_of_foretold {m : Message} {name : String} {p : Path}
    (hmessage : Message.load ready k.message = .ok m)
    (hname : (resolveName s m.context now).result = .ok name)
    (h : Foretold ready s name p) :
    runResolve s k.message none (some s.baseDir) now ready = ⟨[name, p.text], .done⟩ := by
  rw [resolveName] at hname
  simp only [runResolve, hmessage, Option.getD_none, hname, showPath, h.looked]

/-- **Main theorem.** Where the archive directory is there already, what archiving does is told
beforehand. If it succeeds, then in the same tree the preview gives the path on the receipt, and the
name that is resolved leads to that path with a number up to the limit. And if a command line archives
in a directory, without a template of its own, then the command line that resolves the same message
for this directory shows the same name and the path on the receipt. For the moments it is enough that
they give the same name, as all do where the template reads no clock. -/
theorem preview_and_resolve_agree :
    (∀ (s : Settings) (context : Context) (payload : Bytes) (now now' : Calendar.Moment)
        (t : FileTree) (receipt : Archive.Receipt),
      t.isDir s.baseDir = true → SameName s context now now' →
      (Archive.archive s context payload now t).1.result = .ok receipt →
        (previewPath s context now' t).result = .ok receipt.path ∧
        ∃ name i, (resolveName s context now').result = .ok name ∧ i ≤ s.maxUniqueAttempts ∧
          receipt.path = candidate s.baseDir name i) ∧
    (∀ (e : Environment) (t : FileTree) (now now' : Calendar.Moment) (k : Task) (dir : Path)
        (archiving resolving : List String),
      Request.ofArguments archiving = .ok k.archiving →
      Request.ofArguments resolving = .ok (k.resolving dir) →
      t.isDir dir = true → (∀ s ready, k.Loads e t s ready → s.baseDir = dir) →
      (∀ s ready m, k.Loads e t s ready → Message.load ready k.message = .ok m →
        SameName s m.context now now') →
      (run e now t archiving).1.ending.exitCode = 0 →
        ∃ s ready m name receipt i, k.Loads e t s ready ∧ Message.load ready k.message = .ok m ∧
          (resolveName s m.context now').result = .ok name ∧ i ≤ s.maxUniqueAttempts ∧
          receipt.path = candidate dir name i ∧
          (run e now t archiving).1.lines.getLast? = some (receiptLine receipt) ∧
          (run e now' t resolving).1 = ⟨[name, receipt.path.text], .done⟩) := by
  refine ⟨?_, ?_⟩
  · intro s context payload now now' t receipt hdir hsame hresult
    obtain ⟨name, hname, hforetold⟩ := Archive.foretold_of_archive hdir hresult
    rw [← hsame.resolveName] at hname
    obtain ⟨i, hi, hpath⟩ := hforetold.numbered
    exact ⟨Archive.previewPath_of_foretold hname hforetold, name, i, hname, hi, hpath⟩
  · intro e t now now' k dir archiving resolving harchiving hresolving hdir hbase hsame hdone
    obtain ⟨s, ready, m, content, receipt, hloads, hmessage, hresult, hlast⟩ :=
      archive_of_done harchiving hdone
    obtain rfl := hbase s ready hloads
    have hready : ready.isDir s.baseDir = true := hloads.keeps.isDir hdir
    obtain ⟨name, hname, hforetold⟩ := Archive.foretold_of_archive hready hresult
    rw [← (hsame s ready m hloads hmessage).resolveName] at hname
    obtain ⟨i, hi, hpath⟩ := hforetold.numbered
    refine ⟨s, ready, m, name, receipt, i, hloads, hmessage, hname, hi, hpath, hlast, ?_⟩
    rw [run_resolving hresolving hloads]
    exact runResolve_of_foretold hmessage hname hforetold

/-! ### A name that is taken -/

/-- The task that the arguments ask for. -/
def takenTask : Task where
  config := some ⟨"/c"⟩
  message := ⟨"/m"⟩
  payload := ⟨"/p"⟩
  baseDir := none
  strict := false
  audit := false

/-- The settings for the task. -/
def takenSettings : Settings where
  baseDir := ⟨"d"⟩
  fileName := "a"
  extension := ""

/-- The arguments that ask for its name, in the directory of the settings. -/
def resolvingArgs : List String := ["resolve", "--config", "/c", "--message", "/m", "--base-dir", "d"]

/-- A later moment. -/
def laterMoment : Calendar.Moment where
  instant := { seconds := 86400 }

theorem takenTask_loads {s : Settings} {ready : FileTree}
    (h : takenTask.Loads taskHome taskTree s ready) : s = takenSettings := by
  obtain ⟨loaded, hloaded, rfl⟩ := h
  have hsettings : (settings taskHome takenTask.config (openLog taskHome taskTree)).1 =
      .ok takenSettings := by decide +kernel
  rw [hloaded] at hsettings
  rw [Except.ok.inj hsettings]
  rfl

/-- The template of the settings is a single letter. -/
theorem takenSettings_readsNoClock (context : Context) :
    Template.ReadsNoClock context takenSettings.template := by
  refine ⟨by decide, fun now r hread s hs => ?_⟩
  have htext : Template.withTokens context now takenSettings.template.toList = ['a'] := rfl
  rw [htext] at hread
  obtain rfl := hread.unique (.last (by decide))
  obtain rfl := List.mem_singleton.1 hs
  decide

theorem preview_and_resolve_agree_taken :
    ∃ name receipt,
      (run taskHome taskMoment taskTree taskArgs).1.lines.getLast? = some (receiptLine receipt) ∧
        (run taskHome laterMoment taskTree resolvingArgs).1 =
          ⟨[name, receipt.path.text], .done⟩ := by
  obtain ⟨-, hruns⟩ := preview_and_resolve_agree
  obtain ⟨s, ready, m, name, receipt, i, -, -, -, -, -, hlast, hresolving⟩ :=
    hruns taskHome taskTree taskMoment laterMoment takenTask ⟨"d"⟩ taskArgs resolvingArgs
      (by decide) (by decide) (by decide) (fun s ready h => takenTask_loads h ▸ rfl)
      (fun s ready m h _ => Or.inr
        (takenTask_loads h ▸ (takenSettings_readsNoClock m.context).ignoresClock))
      run_taskArgs
  exact ⟨name, receipt, hlast, hresolving⟩

end MessageArchive.CommandLine
