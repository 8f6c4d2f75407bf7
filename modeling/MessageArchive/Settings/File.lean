import MessageArchive.Environment
import MessageArchive.ReadError
import MessageArchive.Settings
import MessageArchive.Toml.Document

set_option autoImplicit false

/-! # The settings file

Settings are read from a TOML text. The archive directory and the template have to be there; the
rest has standard values. Keys of other names are passed over. Where there is no settings file, one
with the standard settings is written.
-/

namespace MessageArchive

/-! ## Reading -/

namespace Toml

/-- The policy with the given name. -/
def policyNamed? : String → Option Template.MissingProperty
  | "empty" => some .empty
  | "fail" => some .fail
  | _ => none

/-- Whether a value holds nothing. -/
def Value.isEmpty : Value → Bool
  | .table _ members => members.isEmpty
  | .array items => items.isEmpty
  | _ => false

/-- The policy that a value is: its name, or a table with nothing but an empty value of its name. -/
def Value.policy? : Value → Option Template.MissingProperty
  | .string name => policyNamed? name
  | .table _ [(name, v)] => if v.isEmpty then policyNamed? name else none
  | _ => none

/-- The number of 32 bits without a sign that a value is. -/
def Value.count? : Value → Option Nat
  | .integer n => if 0 ≤ n ∧ n ≤ 4294967295 then some n.toNat else none
  | _ => none

/-- The settings that the members of a table are. -/
def settings? (members : Members) : Option Settings := do
  let baseDir ← readMember Value.text? none "archive_base_dir" members
  let fileName ← readMember Value.text? none "archive_file" members
  let extension ← readMember Value.text? (some "arc") "extension" members
  let maxUniqueAttempts ←
    readMember Value.count? (some Archive.defaultLimit) "max_unique_attempts" members
  let missingProperty ← readMember Value.policy? (some .empty) "missing_property" members
  return { baseDir := ⟨baseDir⟩, fileName, extension, maxUniqueAttempts, missingProperty }

end Toml

namespace Settings

/-- Reads settings from a TOML text. -/
def ofToml? (text : String) : Option Settings := (Toml.read? text).bind Toml.settings?

/-- Reads settings from a file. -/
def load (t : FileTree) (p : Path) : Except ReadError Settings :=
  t.readDocument .settings p ofToml?

/-! ## Writing -/

/-- The name of a policy. -/
def policyName : Template.MissingProperty → String
  | .empty => "empty"
  | .fail => "fail"

/-- A key and its value on a line of their own. -/
def line (key : String) (value : List Char) : List Char :=
  key.toList ++ [' ', '=', ' '] ++ value ++ ['\n']

/-- The settings as a TOML text, one key on each line. -/
def toToml (s : Settings) : String :=
  String.ofList <|
    line "archive_base_dir" (Toml.quote s.baseDir.text)
      ++ line "archive_file" (Toml.quote s.fileName)
      ++ line "extension" (Toml.quote s.extension)
      ++ line "max_unique_attempts" (Text.digits s.maxUniqueAttempts)
      ++ line "missing_property" (Toml.quote (policyName s.missingProperty))

end Settings

/-! ## Loading or making -/

/-- Why there are no settings. -/
inductive SettingsError where
  /-- The settings file cannot be made. -/
  | unmade (cause : FileError)
  /-- The settings file cannot be read. -/
  | unread (cause : ReadError)
  deriving DecidableEq, Repr

namespace Settings

/-- Loads the settings file, or makes it with the standard settings where it is missing. -/
def loadOrInit (e : Environment) (t : FileTree) : Except SettingsError Settings × FileTree :=
  match t.makeDirs e.configDir with
  | (.error cause, tried) => (.error (.unmade cause), tried)
  | (.ok (), ready) =>
      if ready.pathExists e.configFile then
        ((load ready e.configFile).mapError SettingsError.unread, ready)
      else
        match ready.overwrite e.configFile (Text.utf8 standard.toToml) with
        | .error cause => (.error (.unmade cause), ready)
        | .ok made => (.ok standard, made)

end Settings

end MessageArchive
