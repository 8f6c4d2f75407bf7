set_option autoImplicit false

/-! # White space and comments of TOML

White space is made of spaces and tabs. A line ends in a line feed, which a carriage return may
precede. A comment runs from a number sign to the end of the line. Each function gives what is
left of the text.
-/

namespace MessageArchive.Toml

/-- White space within a line. -/
def isSpace (c : Char) : Bool := c == ' ' || c == '\t'

/-- The characters that may stand in comments: all but control characters, and the tab. -/
def isPrintable (c : Char) : Bool := c == '\t' || (0x20 ≤ c.toNat && c.toNat != 0x7F)

/-- What follows the white space a text begins with. -/
def skipSpace (s : List Char) : List Char := s.dropWhile isSpace

/-- What follows the end of a line. -/
def newline? : List Char → Option (List Char)
  | '\n' :: rest => some rest
  | '\r' :: '\n' :: rest => some rest
  | _ => none

/-- What follows white space and ends of lines. A carriage return that ends no line stays where it
is. -/
def skipBlanks : List Char → List Char
  | '\r' :: '\n' :: rest => skipBlanks rest
  | c :: rest => if isSpace c || c == '\n' then skipBlanks rest else c :: rest
  | [] => []

/-- What follows a comment, if there is one. -/
def skipComment : List Char → List Char
  | '#' :: rest => rest.dropWhile isPrintable
  | s => s

/-- What follows the rest of a line that holds nothing more than white space and a comment. -/
def lineEnd? (s : List Char) : Option (List Char) :=
  match skipComment (skipSpace s) with
  | [] => some []
  | s => newline? s

theorem length_skipSpace_le (s : List Char) : (skipSpace s).length ≤ s.length :=
  (List.dropWhile_sublist isSpace).length_le

theorem length_skipComment_le (s : List Char) : (skipComment s).length ≤ s.length := by
  unfold skipComment
  split
  · next rest =>
    have := (List.dropWhile_sublist (l := rest) isPrintable).length_le
    simp only [List.length_cons]
    omega
  · exact Nat.le_refl _

theorem length_newline?_lt {s rest : List Char} (h : newline? s = some rest) :
    rest.length < s.length := by
  unfold newline? at h
  split at h
  · obtain rfl := Option.some.inj h
    simp
  · obtain rfl := Option.some.inj h
    simp only [List.length_cons]
    omega
  · simp at h

/-- What follows white space, comments and ends of lines. -/
def skipLines (s : List Char) : List Char :=
  match _next : newline? (skipComment (skipSpace s)) with
  | none => skipSpace s
  | some rest => skipLines rest
termination_by s.length
decreasing_by
  have h1 := length_newline?_lt _next
  have h2 := length_skipComment_le (skipSpace s)
  have h3 := length_skipSpace_le s
  omega

end MessageArchive.Toml
