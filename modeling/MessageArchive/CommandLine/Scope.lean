import MessageArchive.CommandLine.Run

set_option autoImplicit false

/-! # What a command looks at

A command is carried out on a file tree that holds the part of the file system it looks at: the
files it reads, and the candidates for the name it looks for, up to the first that is free.
-/

namespace MessageArchive.CommandLine

/-- The files whose content a command reads, and the directories it looks for. -/
def Command.paths (s : Settings) : Command → List Path
  | .resolve message _ baseDir _ => message :: baseDir.toList
  | .archive message payload baseDir _ _ _ => [message, payload, baseDir.getD s.baseDir]
  | .checksum path _ => [path]

/-- The template that a command resolves against a message, with the settings it does so under and
the directory it looks for the name in. -/
def Command.naming? (s : Settings) : Command → Option (Settings × String × Path × Path)
  | .resolve message template (some baseDir) strict =>
      let s := adjust s none none strict
      some (s, template.getD s.template, message, baseDir)
  | .archive message _ baseDir template strict _ =>
      let s := adjust s baseDir template strict
      some (s, s.template, message, s.baseDir)
  | _ => none

/-- The directory and the name that a command looks for a free path with, if it comes so far. -/
def Command.sought? (s : Settings) (now : Calendar.Moment) (t : FileTree) (c : Command) :
    Option (Path × String) :=
  match c.naming? s with
  | none => none
  | some (s, template, message, baseDir) =>
      match Message.load t message with
      | .error _ => none
      | .ok m =>
          match (Template.resolve s.missingProperty template m.context now).result with
          | .error _ => none
          | .ok name => some (baseDir, name)

end MessageArchive.CommandLine
