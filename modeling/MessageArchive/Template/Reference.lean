import MessageArchive.Error
import MessageArchive.Text.Enclosed

set_option autoImplicit false

/-! # References to properties

A reference names a property by its namespace and its name. The last slash stands between the
two, so a namespace may hold slashes and a name may not.
-/

namespace MessageArchive.Template

open MessageArchive.Text

/-- The namespace and the name of a property. -/
structure Reference where
  space : String
  name : String
  deriving DecidableEq, Repr

namespace Reference

/-- Reads a reference, if it holds a slash. -/
def ofText? (text : List Char) : Option Reference :=
  (splitLast '/' text).map fun (space, name) => ⟨String.ofList space, String.ofList name⟩

/-- Reads a reference, or says that it has no slash. -/
def parse (text : List Char) : Except ArchiveError Reference :=
  match ofText? text with
  | some reference => .ok reference
  | none => .error (.malformed (.noSlash (String.ofList text)))

/-- The reference as it is written. -/
def text (r : Reference) : List Char := r.space.toList ++ '/' :: r.name.toList

theorem ofText?_eq_some_iff {text : List Char} {r : Reference} :
    ofText? text = some r ↔ text = r.text ∧ '/' ∉ r.name.toList := by
  obtain ⟨space, name⟩ := r
  simp only [ofText?, Option.map_eq_some_iff, Prod.exists, mk.injEq, Reference.text]
  constructor
  · rintro ⟨s, n, h, rfl, rfl⟩
    simpa using splitLast_eq_some_iff.1 h
  · rintro ⟨rfl, h⟩
    exact ⟨space.toList, name.toList, splitLast_eq_some_iff.2 ⟨rfl, h⟩, by simp, by simp⟩

theorem ofText?_eq_none_iff {text : List Char} : ofText? text = none ↔ '/' ∉ text := by
  simp [ofText?, splitLast_eq_none_iff]

end Reference

end MessageArchive.Template
