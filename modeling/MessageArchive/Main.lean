import MessageArchive.CommandLine.Scope
import MessageArchive.FileTree.Changes
import Std.Time.Zoned.Database

set_option autoImplicit false

/-! # The program

Copies the part of the file system that a command line looks at into a file tree, carries the
command line out on the tree, makes in the file system what has been made in the tree, and shows
what there is to show. When a new file turns out to be there already, somebody else was faster, and
all is done once more.
-/

namespace MessageArchive.CommandLine

/-- The way to use the program, as it is shown on request and to those who use it wrongly. -/
def usage : String :=
  "Usage: msgarc [--config FILE] COMMAND\n\n"
    ++ "Commands:\n"
    ++ "  resolve --message FILE [--base-dir DIR] [--strict] [TEMPLATE]\n"
    ++ "  archive --message FILE --payload FILE [--base-dir DIR] [--template TEMPLATE]\n"
    ++ "          [--strict] [--audit]\n"
    ++ "  checksum [--expect DIGEST] PATH\n"

/-! ## Looking -/

/-- The absolute path of a location. -/
def pathText (loc : Location) : String := "/" ++ String.intercalate "/" loc.reverse

/-- Adds the directories on a way to the tree, and what stands at its end. -/
def look (withContent : Bool) : FileTree → Location → List String → IO FileTree
  | t, _, [] => return t
  | t, here, name :: rest => do
      if name = "." then look withContent t here rest
      else if name = ".." then look withContent t here.tail rest
      else
        let loc := name :: here
        let place := (← IO.currentDir) / pathText loc
        if ← place.isDir then look withContent (t.put loc .directory) loc rest
        else if ← place.pathExists then
          -- A file that is only in the way is not read, and one that is read is not forgotten.
          if withContent then return t.put loc (.file (← IO.FS.readBinFile place).toList)
          else return if (t.node? loc).isSome then t else t.put loc (.file [])
        else return t

/-- Adds what a path names to the tree, as long as it can be looked at. -/
def observe (withContent : Bool) (t : FileTree) (p : Path) : IO FileTree :=
  if p.check.isOk then look withContent t (t.start p) p.parts else return t

/-- Adds candidates for a name to the tree, up to the first that is free. -/
def observeTaken (base : Path) (name : String) : (more index : Nat) → FileTree → IO FileTree
  | 0, _, t => return t
  | more + 1, index, t => do
      let t ← observe false t (Archive.candidate base name index)
      if t.pathExists (Archive.candidate base name index) then
        observeTaken base name more (index + 1) t
      else return t

/-- The tree with the working directory and what a command line looks at. -/
def observeFor (e : Environment) (now : Calendar.Moment) (args : List String) : IO FileTree := do
  let here := Path.mk (← IO.currentDir).toString
  let t ← observe false { workingDir := here.parts.reverse } here
  let t ← observe false t e.logFile
  match Request.ofArguments args with
  | .error _ => return t
  | .ok request =>
      let t ← observe true t (request.config.getD e.configFile)
      match (settings e request.config t).1 with
      | .error _ => return t
      | .ok s =>
          let t ← (request.command.paths s).foldlM (observe true) t
          match request.command.sought? s now t with
          | none => return t
          | some (base, name) => observeTaken base name (s.maxUniqueAttempts + 1) 0 t

/-! ## Making -/

/-- Makes a file. The answer is `false` where there is something of that name. -/
def makeFile (loc : Location) (content : Bytes) : IO Bool := do
  try
    let handle ← IO.FS.Handle.mk (pathText loc) .writeNew
    handle.write ⟨content.toArray⟩
    return true
  catch
    | .alreadyExists .. => return false
    | e => throw e

/-- Makes what is new in a tree. The answer is `false` when a new file is there already. -/
def make : List FileTree.Change → IO Bool
  | [] => return true
  | .directory loc :: rest => do
      IO.FS.createDirAll (pathText loc)
      make rest
  | .newContent loc content :: rest => do
      IO.FS.writeBinFile (pathText loc) ⟨content.toArray⟩
      make rest
  | .newFile loc content :: rest => do
      if ← makeFile loc content then make rest else return false

/-! ## The surroundings -/

/-- The places that the environment variables give. -/
def environment : IO Environment := do
  return {
    home := ⟨(← IO.getEnv "HOME").getD "/"⟩
    configHome := (← IO.getEnv "XDG_CONFIG_HOME").map Path.mk
    stateHome := (← IO.getEnv "XDG_STATE_HOME").map Path.mk }

/-- The time of the clock, in the zone it is set to. -/
def currentMoment : IO Calendar.Moment := do
  let time ← Std.Time.Timestamp.now
  let offset ←
    try
      let rules ← Std.Time.Database.defaultGetLocalZoneRules
      pure (rules.timezoneAt time).offset.second.val
    catch _ => pure 0
  return ⟨⟨time.val.second.val, time.val.nano.val.toNat⟩, .fixed offset⟩

/-- Carries out a command line in the file system. -/
partial def perform (e : Environment) (args : List String) : IO Report := do
  let now ← currentMoment
  -- The tree is copied anew for each try, since the file system may have changed.
  let before ← observeFor e now args
  let (report, after) := run e now before args
  if ← make (before.changes after) then return report else perform e args

/-- Shows the lines of a report and the failure. -/
def Report.print (r : Report) : IO Unit := do
  IO.print r.output
  match r.ending with
  | .refused .help => IO.print usage
  | .refused .usage => IO.eprint usage
  | ending => (ending.error?.forM IO.eprintln)

end MessageArchive.CommandLine

open MessageArchive.CommandLine in
/-- Carries out the command line that the program is started with. -/
def main (args : List String) : IO UInt32 := do
  let report ← perform (← environment) args
  report.print
  return report.ending.exitCode.toUInt32
