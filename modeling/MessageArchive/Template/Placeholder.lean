import MessageArchive.Error
import MessageArchive.Text.Enclosed

set_option autoImplicit false

/-! # Placeholders of a template

A placeholder that is opened and never closed is a fault of the template it stands in.
-/

namespace MessageArchive.Template

open MessageArchive.Text

/-- A closer that is missing is a fault of the template. -/
def faultIfMissing {α : Type} (found : Except Char α) : Except ArchiveError α :=
  found.mapError fun closer => .malformed (.unclosed closer)

@[simp] theorem faultIfMissing_ok {α : Type} (a : α) : faultIfMissing (.ok a) = .ok a := rfl

@[simp] theorem faultIfMissing_error {α : Type} (closer : Char) :
    faultIfMissing (.error closer : Except Char α) = .error (.malformed (.unclosed closer)) := rfl

theorem faultIfMissing_eq_ok_iff {α : Type} {found : Except Char α} {a : α} :
    faultIfMissing found = .ok a ↔ found = .ok a := by
  cases found with
  | error closer =>
      rw [faultIfMissing_error]
      simp
  | ok b => rw [faultIfMissing_ok, Except.ok.injEq, Except.ok.injEq]

theorem faultIfMissing_eq_error_iff {α : Type} {found : Except Char α} {e : ArchiveError} :
    faultIfMissing found = .error e ↔
      ∃ closer, found = .error closer ∧ e = .malformed (.unclosed closer) := by
  cases found with
  | error closer =>
      rw [faultIfMissing_error]
      simp [eq_comm]
  | ok b =>
      rw [faultIfMissing_ok]
      simp

/-- Locates the first placeholder of a template, if there is one. -/
def findEnclosed (s : String) (opener closer : Char) : Except ArchiveError (Option Occurrence) :=
  faultIfMissing (Text.findEnclosed s opener closer)

/-- What stands in the first placeholder of a template, without the blanks at either end. -/
def extract (s : String) (opener closer : Char) : Except ArchiveError (Option String) :=
  faultIfMissing (Text.extract s opener closer)

end MessageArchive.Template
