import MessageArchive.FileTree.Path

set_option autoImplicit false

/-! # Places of the program's own files

The settings and the log are kept below the home directory, or below directories that the
environment names. Directories that are not named by an absolute path do not count.
-/

namespace MessageArchive

/-- What the program is told about the places of its files. -/
structure Environment where
  home : Path
  /-- The directory for settings, if the environment names one. -/
  configHome : Option Path := none
  /-- The directory for state, if the environment names one. -/
  stateHome : Option Path := none
  deriving DecidableEq, Repr

namespace Environment

/-- A directory that is named by an absolute path, and else one below the home directory. -/
def directory (home : Path) (named : Option Path) (below : String) : Path :=
  match named with
  | some path => if path.isAbsolute then path else home.join below
  | none => home.join below

/-- The directory of the settings file. -/
def configDir (e : Environment) : Path :=
  (directory e.home e.configHome ".config").join "msgarc"

/-- The settings file. -/
def configFile (e : Environment) : Path := e.configDir.join "config.toml"

/-- The directory of the log file. -/
def logDir (e : Environment) : Path := (directory e.home e.stateHome ".local/state").join "msgarc"

/-- The log file. -/
def logFile (e : Environment) : Path := e.logDir.join "msgarc.log"

end Environment

end MessageArchive
