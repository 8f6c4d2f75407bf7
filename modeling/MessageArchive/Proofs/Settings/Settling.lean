import Mathlib.Logic.Function.Iterate
import MessageArchive.Proofs.CommandLine.Keeping
import MessageArchive.Proofs.FileTree.Adding
import MessageArchive.Proofs.FileTree.Standing
import MessageArchive.Proofs.Toml.Lines

set_option autoImplicit false

/-! # The settings file settles

Settings are read back from the text that they are written as (`ofToml?_toToml`). A call of
`loadOrInit` ends in one of three ways (`LoadEnd`): directories cannot be made or the file cannot be
written, the file is there and is read, or there is nothing in its place and the standard settings
are written. Whatever the way, a file that was there is left as it was, and a call that gives out
settings has left a file that they are read from; so the next call finds that file, finds its
directory, and changes nothing (`loadOrInit_of_exists`).

A path with `..` can lead to a file and still name nothing, for want of a directory that is left
again right away. Once the directory is made, the file is read like any other (`Reads`).
-/

namespace MessageArchive.Settings

open FileTree (Adds AddsDirs Keeps)
open Toml (Entry)

/-! ## Settings are read back -/

/-- The lines that settings are written on. -/
def entries (s : Settings) (h : s.maxUniqueAttempts ≤ 4294967295) : List Entry :=
  [⟨"archive_base_dir", Toml.quote s.baseDir.text, .string s.baseDir.text,
      ⟨by decide, by decide⟩, Toml.readsAs_quote _⟩,
    ⟨"archive_file", Toml.quote s.fileName, .string s.fileName,
      ⟨by decide, by decide⟩, Toml.readsAs_quote _⟩,
    ⟨"extension", Toml.quote s.extension, .string s.extension,
      ⟨by decide, by decide⟩, Toml.readsAs_quote _⟩,
    ⟨"max_unique_attempts", Text.digits s.maxUniqueAttempts, .integer s.maxUniqueAttempts,
      ⟨by decide, by decide⟩, Toml.readsAs_digits (by omega)⟩,
    ⟨"missing_property", Toml.quote (policyName s.missingProperty),
      .string (policyName s.missingProperty), ⟨by decide, by decide⟩, Toml.readsAs_quote _⟩]

theorem policyNamed?_policyName (policy : Template.MissingProperty) :
    Toml.policyNamed? (policyName policy) = some policy := by
  cases policy with
  | empty => rfl
  | fail => rfl

/-- **Settings are read back from their text**, all of them. -/
theorem ofToml?_toToml (s : Settings) (h : s.maxUniqueAttempts ≤ 4294967295) :
    ofToml? s.toToml = some s := by
  have htext : s.toToml = String.ofList ((s.entries h).flatMap Entry.line) := by
    simp [toToml, entries, Entry.line]
  have hkeys : ((s.entries h).map Entry.key).Nodup := by
    show ["archive_base_dir", "archive_file", "extension", "max_unique_attempts",
      "missing_property"].Nodup
    decide
  have hcount : Toml.Value.count? (.integer s.maxUniqueAttempts) = some s.maxUniqueAttempts := by
    rw [Toml.Value.count?, if_pos ⟨by omega, by omega⟩, Int.toNat_natCast]
  have hpolicy : Toml.Value.policy? (.string (policyName s.missingProperty)) =
      some s.missingProperty := policyNamed?_policyName s.missingProperty
  rw [ofToml?, htext, Toml.read?_entries hkeys, Option.bind_some]
  simp [Toml.settings?, Toml.readMember, Toml.find?, entries, Entry.member, Toml.Value.text?,
    hcount, hpolicy]

/-! ## The place of the settings file -/

variable {e : Environment} {t ready after : FileTree} {s : Settings}

theorem configDir_ne_nil (e : Environment) : e.configDir.text.toList ≠ [] := by
  have hrel : (Path.mk "msgarc").isAbsolute = false := rfl
  obtain ⟨slash, htext, -, -, -⟩ :=
    Path.join_text hrel (Environment.directory e.home e.configHome ".config")
  rw [Environment.configDir, htext]
  simp

theorem endsWithSlash_configFile (e : Environment) : e.configFile.endsWithSlash = false := by
  have hrel : (Path.mk "config.toml").isAbsolute = false := rfl
  obtain ⟨slash, htext, -, -, -⟩ := Path.join_text hrel e.configDir
  rw [Path.endsWithSlash, Environment.configFile, htext]
  simp

/-- A settings file that is there stands in its directory. -/
theorem isDir_configDir (h : t.pathExists e.configFile = true) : t.isDir e.configDir = true :=
  FileTree.isDir_of_exists_join rfl (by decide) (configDir_ne_nil e) h

/-! ## One call -/

/-- **Where there is a settings file, or anything else in its place, it is read, and the tree stays
as it is.** -/
theorem loadOrInit_of_exists (h : t.pathExists e.configFile = true) :
    loadOrInit e t = ((load t e.configFile).mapError .unread, t) := by
  rw [loadOrInit, FileTree.makeDirs_of_isDir (isDir_configDir h)]
  dsimp only
  rw [if_pos h]

/-- The ways in which a call ends, with what has become of the tree. -/
inductive LoadEnd (e : Environment) (t : FileTree) :
    Except SettingsError Settings × FileTree → Prop
  /-- There is no settings file, and none can be made. -/
  | unmade (cause : FileError) (tried : FileTree) (dirs : AddsDirs (fun _ => True) t tried) :
      LoadEnd e t (.error (.unmade cause), tried)
  /-- The path of the settings file names something, if need be after directories were made. -/
  | loaded (ready : FileTree) (dirs : AddsDirs (fun _ => True) t ready)
      (there : ready.pathExists e.configFile = true) :
      LoadEnd e t ((load ready e.configFile).mapError .unread, ready)
  /-- There was nothing in the place of the settings file, and it is made. -/
  | made (ready : FileTree) (dirs : AddsDirs (fun _ => True) t ready) (loc : Location)
      (slot : ready.FreeSlot e.configFile loc) :
      LoadEnd e t (.ok standard, ready.put loc (.file (Text.utf8 standard.toToml)))

theorem loadOrInit_ends (e : Environment) (t : FileTree) : LoadEnd e t (loadOrInit e t) := by
  have hdirs : AddsDirs (fun _ => True) t (t.makeDirs e.configDir).2 :=
    (FileTree.makeDirs_adds t e.configDir).mono fun _ _ => trivial
  unfold loadOrInit
  split
  next cause tried htried =>
    rw [htried] at hdirs
    exact .unmade cause tried hdirs
  next ready hready =>
    rw [hready] at hdirs
    split
    next there => exact .loaded ready hdirs there
    next hmissing =>
      rw [Bool.not_eq_true] at hmissing
      rw [FileTree.overwrite]
      cases hslot : ready.fileSlot e.configFile with
      | error cause => exact .unmade cause ready hdirs
      | ok loc =>
          have hfree := FileTree.fileSlot_free hslot hmissing
          exact .made ready hdirs loc ⟨FileTree.fileSlot_eq_ok hslot, hfree⟩

/-! ## What is given out -/

/-- The file with the settings that are given out has been made, and is all that is new besides
directories. -/
structure Makes (e : Environment) (t : FileTree) (s : Settings) (after : FileTree) : Prop where
  standard : s = Settings.standard
  free : t.node? (t.target e.configFile) = none
  file : after.node? (t.target e.configFile) = some (.file (Text.utf8 s.toToml))
  only : Adds (fun loc node => node = .directory ∨
    loc = t.target e.configFile ∧ node = .file (Text.utf8 s.toToml)) t after
  read : load after e.configFile = .ok s

/-- The settings are those of a file that was there before, and nothing but directories is new. -/
structure Reads (e : Environment) (t : FileTree) (s : Settings) (after : FileTree) : Prop where
  file : ∃ content, t.node? (t.target e.configFile) = some (.file content)
  only : AddsDirs (fun _ => True) t after
  read : load after e.configFile = .ok s

/-- A file with settings is read as these settings. -/
theorem load_of_file {loc : Location} (hloc : t.locate e.configFile = .ok loc)
    (hfile : t.node? loc = some (.file (Text.utf8 s.toToml)))
    (h : s.maxUniqueAttempts ≤ 4294967295) : load t e.configFile = .ok s := by
  have htext : t.textOf e.configFile = .ok s.toToml := by
    rw [FileTree.textOf, FileTree.contentOf_of_locate hloc hfile]
    dsimp only
    rw [Text.ofUtf8?_utf8]
  rw [load, FileTree.readDocument, htext]
  dsimp only
  rw [ofToml?_toToml s h]

/-- Settings that are read are those of a file that is there. -/
theorem locate_of_load (h : load t e.configFile = .ok s) :
    ∃ loc content, t.locate e.configFile = .ok loc ∧ t.node? loc = some (.file content) := by
  rw [load, FileTree.readDocument, FileTree.textOf] at h
  cases hcontent : t.contentOf e.configFile with
  | error cause => simp [hcontent] at h
  | ok content =>
      obtain ⟨loc, hloc, hfile⟩ := FileTree.locate_of_contentOf hcontent
      exact ⟨loc, content, hloc, hfile⟩

theorem pathExists_of_load (h : load t e.configFile = .ok s) :
    t.pathExists e.configFile = true := by
  obtain ⟨loc, content, hloc, -⟩ := locate_of_load h
  exact FileTree.pathExists_iff.2 ⟨loc, hloc⟩

theorem makes_of_freeSlot {loc : Location} (hdirs : AddsDirs (fun _ => True) t ready)
    (hslot : ready.FreeSlot e.configFile loc) :
    Makes e t standard (ready.put loc (.file (Text.utf8 standard.toToml))) := by
  have htarget : t.target e.configFile = loc := by
    rw [← hdirs.keeps.target, hslot.target]
  have hfile := FileTree.node?_put_self ready hslot.ne_root (.file (Text.utf8 standard.toToml))
  have hkeeps := FileTree.keeps_put hslot.free (.file (Text.utf8 standard.toToml))
  have hloc := (hslot.toFileSlot.of_keeps hkeeps).locate hfile
  refine ⟨rfl, ?_, ?_, ?_, load_of_file hloc hfile (by decide)⟩
  · rw [htarget]
    exact hdirs.keeps.free hslot.free
  · rw [htarget]
    exact hfile
  · exact (hdirs.adds fun _ => Or.inl rfl).trans
      (FileTree.adds_put hslot.ne_root hslot.free (Or.inr ⟨htarget.symm, rfl⟩))

/-- Settings that are given out have been written or read. -/
theorem makes_or_reads (h : loadOrInit e t = (.ok s, after)) :
    Makes e t s after ∨ Reads e t s after := by
  have hend := loadOrInit_ends e t
  generalize loadOrInit e t = outcome at h hend
  cases hend with
  | unmade cause tried dirs => cases h
  | loaded ready dirs there =>
      obtain ⟨hread, rfl⟩ := Prod.mk.inj h
      have hload : load ready e.configFile = .ok s := by
        cases hcase : load ready e.configFile with
        | error cause =>
            rw [hcase] at hread
            cases hread
        | ok found =>
            rw [hcase, Except.mapError] at hread
            rw [Except.ok.inj hread]
      -- Only directories have been made, so the file that is read was there.
      obtain ⟨loc, content, hloc, hfile⟩ := locate_of_load hload
      rw [FileTree.locate_eq_target hloc, dirs.keeps.target] at hfile
      have hbefore : t.node? (t.target e.configFile) = some (.file content) := by
        rcases dirs.node (t.target e.configFile) with hsame | ⟨-, hdir, -⟩
        · rw [← hsame, hfile]
        · rw [hfile] at hdir
          cases hdir
      exact Or.inr ⟨⟨content, hbefore⟩, dirs, hload⟩
  | made ready dirs loc slot =>
      obtain ⟨hstandard, rfl⟩ := Prod.mk.inj h
      obtain rfl := Except.ok.inj hstandard
      exact Or.inl (makes_of_freeSlot dirs slot)

/-- Settings that are given out are read from the file that is there afterwards. -/
theorem load_of_given (h : loadOrInit e t = (.ok s, after)) : load after e.configFile = .ok s := by
  rcases makes_or_reads h with hmakes | hreads
  · exact hmakes.read
  · exact hreads.read

/-- Settings are given out from a file that was there, or there was nothing in its place. -/
theorem makes_of_free (hfree : t.node? (t.target e.configFile) = none)
    (h : loadOrInit e t = (.ok s, after)) : Makes e t s after := by
  rcases makes_or_reads h with hmakes | hreads
  · exact hmakes
  · obtain ⟨content, hfile⟩ := hreads.file
    rw [hfree] at hfile
    cases hfile

/-- A call that gives out no settings has made directories at most. -/
theorem addsDirs_of_error {cause : SettingsError} (h : loadOrInit e t = (.error cause, after)) :
    AddsDirs (fun _ => True) t after := by
  have hend := loadOrInit_ends e t
  generalize loadOrInit e t = outcome at h hend
  cases hend with
  | unmade cause tried dirs => exact (Prod.mk.inj h).2 ▸ dirs
  | loaded ready dirs there => exact (Prod.mk.inj h).2 ▸ dirs
  | made ready dirs loc slot => cases h

/-! ## All calls -/

/-- The call after a call, with nothing done in between. -/
def again (e : Environment) (outcome : Except SettingsError Settings × FileTree) :
    Except SettingsError Settings × FileTree := loadOrInit e outcome.2

/-- A call that gives out settings is repeated by every later one. -/
theorem again_of_given (h : loadOrInit e t = (.ok s, after)) :
    again e (.ok s, after) = (.ok s, after) := by
  have hload := load_of_given h
  rw [again, loadOrInit_of_exists (pathExists_of_load hload), hload]
  rfl

/-- What calls make of a tree, and what they leave to later calls. -/
structure Settles (e : Environment) (t : FileTree) : Prop where
  /-- What is there is read and left alone. -/
  found : t.pathExists e.configFile = true →
    loadOrInit e t = ((load t e.configFile).mapError .unread, t)
  /-- Where nothing was, the file is made, and nothing else but directories. -/
  absent : t.node? (t.target e.configFile) = none → ∀ s after,
    loadOrInit e t = (.ok s, after) → Makes e t s after
  /-- A path that named nothing had nothing in its place, if it has no `..`. -/
  plain : t.Rooted → ".." ∉ e.configFile.parts → t.pathExists e.configFile = false →
    ∀ s after, loadOrInit e t = (.ok s, after) → Makes e t s after
  /-- Whatever was there, the settings have been written or read. -/
  given : ∀ s after, loadOrInit e t = (.ok s, after) → Makes e t s after ∨ Reads e t s after
  /-- A call that fails makes and changes no file. -/
  failed : ∀ cause after, loadOrInit e t = (.error cause, after) →
    AddsDirs (fun _ => True) t after
  /-- After a call that gives out settings, later ones give out the same and change nothing. -/
  settled : ∀ s after, loadOrInit e t = (.ok s, after) → ∀ n,
    (again e)^[n] (.ok s, after) = (.ok s, after)

/-- **One call is enough**: it leaves what is there, makes what is missing, and is repeated by every
later call. -/
theorem loadOrInit_settles (e : Environment) (t : FileTree) : Settles e t where
  found := loadOrInit_of_exists
  absent := fun hfree _ _ h => makes_of_free hfree h
  plain := by
    intro hrooted hup hmissing s after h
    have hkeeps : Keeps [] t after := by
      have hall := loadOrInit_keeps e t
      rw [h] at hall
      exact hall
    have hthere := pathExists_of_load (load_of_given h)
    have hfree := hrooted.vacant hkeeps hup (endsWithSlash_configFile e) hmissing hthere
    exact makes_of_free hfree h
  given := fun _ _ h => makes_or_reads h
  failed := fun _ _ h => addsDirs_of_error h
  settled := fun _ _ h n => Function.iterate_fixed (again_of_given h) n

-- In an empty tree the home directory is made as well.
example : (loadOrInit ⟨⟨"/home"⟩, none, none⟩ {}).1 = .ok standard := rfl

end MessageArchive.Settings
