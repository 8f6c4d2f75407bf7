import MessageArchive.Text.Enclosed

set_option autoImplicit false

/-! # Readings

Not every text with placeholders has a layout: an opener may have no closer behind it. A reader who
goes from each opener to the first closer after it then stops at that opener. What he has read by
then is a `Reading`, and it is determined by the text alone: each text has one reading
(`exists_of`) and only one (`Of.unique`).
-/

namespace MessageArchive.Text

/-- A text read from left to right, up to its end or to an opener that is never closed. -/
inductive Reading where
  | last (stretch : List Char)
  | unclosed (stretch rest : List Char)
  | more (stretch body : List Char) (rest : Reading)
  deriving DecidableEq, Repr

namespace Reading

/-- The stretches of text between the placeholders that were read. -/
def stretches : Reading → List (List Char)
  | .last s => [s]
  | .unclosed s _ => [s]
  | .more s _ rest => s :: rest.stretches

/-- What stands in the placeholders that were read. -/
def bodies : Reading → List (List Char)
  | .last _ => []
  | .unclosed _ _ => []
  | .more _ body rest => body :: rest.bodies

/-- Whether the whole text was read. -/
def isClosed : Reading → Bool
  | .last _ => true
  | .unclosed _ _ => false
  | .more _ _ rest => rest.isClosed

/-- A reading of a text. No stretch holds an opener, no body a closer, and no closer stands behind an
opener that is not closed. -/
inductive Of (opener closer : Char) : Reading → List Char → Prop
  | last {s : List Char} (noOpener : opener ∉ s) : Of opener closer (.last s) s
  | unclosed {s rest : List Char} (noOpener : opener ∉ s) (noCloser : closer ∉ rest) :
      Of opener closer (.unclosed s rest) (s ++ opener :: rest)
  | more {s body after : List Char} {rest : Reading} (noOpener : opener ∉ s)
      (noCloser : closer ∉ body) (following : Of opener closer rest after) :
      Of opener closer (.more s body rest) (s ++ opener :: (body ++ closer :: after))

/-- The pieces that a text with the reading is cut into. -/
def pieces : Reading → Pieces
  | .last s => .last s
  | .unclosed _ _ => .unclosed
  | .more s body rest => .more s body rest.pieces

variable {opener closer : Char} {text : List Char} {r r' : Reading}

/-- A text is cut as it is read. -/
theorem Of.pieces (h : r.Of opener closer text) : Pieces.ofText opener closer text = r.pieces := by
  induction h with
  | last hs => exact Pieces.ofText_of_absent (cut_eq_absent_iff.2 hs)
  | unclosed hs hrest =>
      exact Pieces.ofText_of_unclosed (cut_eq_unclosed_iff.2 ⟨_, _, rfl, hs, hrest⟩)
  | more hs hbody _ ih =>
      rw [Pieces.ofText_of_found (cut_eq_found_iff.2 ⟨rfl, hs, hbody⟩), ih]
      rfl

theorem exists_of (opener closer : Char) (text : List Char) :
    ∃ r : Reading, r.Of opener closer text := by
  -- The induction is on the cuts of the text: what is behind a placeholder has a reading.
  induction text using Pieces.ofText.induct opener closer with
  | case1 s hcut => exact ⟨.last s, .last (cut_eq_absent_iff.1 hcut)⟩
  | case2 s hcut =>
      obtain ⟨before, rest, rfl, hs, hrest⟩ := cut_eq_unclosed_iff.1 hcut
      exact ⟨.unclosed before rest, .unclosed hs hrest⟩
  | case3 s before body after hcut ih =>
      obtain ⟨rfl, hs, hbody⟩ := cut_eq_found_iff.1 hcut
      obtain ⟨r, hr⟩ := ih
      exact ⟨.more before body r, .more hs hbody hr⟩

/-- What stands before the first opener, and what behind it, is determined by the text. -/
theorem split_unique {c : Char} {s s' rest rest' : List Char} (h : s ++ c :: rest = s' ++ c :: rest')
    (hs : c ∉ s) (hs' : c ∉ s') : s = s' ∧ rest = rest' := by
  have hfirst := splitFirst_eq_some_iff.2 ⟨h, hs'⟩
  rw [splitFirst_eq_some_iff.2 ⟨rfl, hs⟩] at hfirst
  simpa using hfirst

theorem Of.unique (h : r.Of opener closer text) (h' : r'.Of opener closer text) : r = r' := by
  induction h generalizing r' with
  | last hs =>
      cases h' with
      | last => rfl
      | unclosed => exact absurd (by simp) hs
      | more => exact absurd (by simp) hs
  | @unclosed s rest hs hrest =>
      generalize htext : s ++ opener :: rest = text at h'
      cases h' with
      | last hs' => exact absurd (by simp [← htext]) hs'
      | unclosed hs' _ =>
          obtain ⟨rfl, rfl⟩ := split_unique htext hs hs'
          rfl
      | more hs' _ _ =>
          obtain ⟨-, rfl⟩ := split_unique htext hs hs'
          exact absurd (by simp) hrest
  | @more s body after rest hs hbody _ ih =>
      generalize htext : s ++ opener :: (body ++ closer :: after) = text at h'
      cases h' with
      | last hs' => exact absurd (by simp [← htext]) hs'
      | unclosed hs' hrest =>
          obtain ⟨-, rfl⟩ := split_unique htext hs hs'
          exact absurd (by simp) hrest
      | more hs' hbody' hrest =>
          obtain ⟨rfl, hbehind⟩ := split_unique htext hs hs'
          obtain ⟨rfl, rfl⟩ := split_unique hbehind hbody hbody'
          rw [ih hrest]

end Reading

end MessageArchive.Text
