set_option autoImplicit false

/-! # Date patterns

A date pattern is text in which letters stand for fields of a moment. A maximal run of one
letter is one field, and the length of the run says how it is written. Single quotes switch
between plain reading and quoted text, which is copied as it stands; two adjacent quotes are one
quote in either state. Everything outside quotes that is not an ASCII letter is copied as well.

Reading a pattern needs no moment: `read` gives the fields and the copied characters in order,
or says what is wrong with the pattern. Of an illegal letter and a quote that is never closed
the letter is reported, and of several illegal letters the leftmost.
-/

namespace MessageArchive.Calendar

/-- What a letter of a date pattern stands for. -/
inductive Field where
  | era
  | year
  | weekYear
  | month
  | week
  | ordinal
  | dayOfMonth
  | weekdayInMonth
  | weekdayName
  | weekdayNumber
  | halfOfDay
  | hour
  | hourFromOne
  | hourOfHalf
  | hourOfHalfFromOne
  | minute
  | second
  | millisecond
  | zoneName
  | zoneOffset
  | zoneOffsetOrZ
  deriving DecidableEq, Repr

/-- The field of a pattern letter. -/
def Field.ofLetter? : Char → Option Field
  | 'G' => some .era
  | 'y' => some .year
  | 'Y' => some .weekYear
  | 'M' => some .month
  | 'L' => some .month
  | 'w' => some .week
  | 'D' => some .ordinal
  | 'd' => some .dayOfMonth
  | 'F' => some .weekdayInMonth
  | 'E' => some .weekdayName
  | 'u' => some .weekdayNumber
  | 'a' => some .halfOfDay
  | 'H' => some .hour
  | 'k' => some .hourFromOne
  | 'K' => some .hourOfHalf
  | 'h' => some .hourOfHalfFromOne
  | 'm' => some .minute
  | 's' => some .second
  | 'S' => some .millisecond
  | 'z' => some .zoneName
  | 'Z' => some .zoneOffset
  | 'X' => some .zoneOffsetOrZ
  | _ => none

namespace Pattern

/-- One character of a pattern once the quotes are read. -/
inductive Mark where
  /-- A character that is copied. -/
  | copied (c : Char)
  /-- A letter outside quotes. -/
  | letter (c : Char)
  deriving DecidableEq, Repr

/-- Reads the quotes of a pattern, from inside or from outside a quoted stretch. The second
component says whether the pattern ends inside one. -/
def marks : Bool → List Char → List Mark × Bool
  | quoted, [] => ([], quoted)
  | quoted, '\'' :: '\'' :: rest =>
      let (ms, ended) := marks quoted rest
      (.copied '\'' :: ms, ended)
  | quoted, '\'' :: rest => marks (!quoted) rest
  | quoted, c :: rest =>
      let (ms, ended) := marks quoted rest
      ((if !quoted && c.isAlpha then .letter c else .copied c) :: ms, ended)

/-- A copied character, or a run of one letter. -/
inductive Run where
  | copied (c : Char)
  | letters (c : Char) (count : Nat)
  deriving DecidableEq, Repr

/-- Puts a letter in front of the runs that follow it. -/
def addLetter (c : Char) : List Run → List Run
  | .letters d count :: rest =>
      if c = d then .letters d (count + 1) :: rest else .letters c 1 :: .letters d count :: rest
  | rest => .letters c 1 :: rest

/-- Gathers adjacent equal letters into runs. -/
def runs : List Mark → List Run
  | [] => []
  | .copied c :: rest => .copied c :: runs rest
  | .letter c :: rest => addLetter c (runs rest)

/-- A part of a pattern that has been read: a copied character, or a field with its length. -/
inductive Item where
  | copied (c : Char)
  | field (meaning : Field) (count : Nat)
  deriving DecidableEq, Repr

/-- What can be wrong with a pattern. -/
inductive Fault where
  /-- A letter outside quotes that stands for no field. -/
  | illegalLetter (c : Char)
  /-- The pattern ends inside quotes. -/
  | unterminatedQuote
  deriving DecidableEq, Repr

/-- The item of a run; the letter is handed back when it stands for no field. -/
def Run.item : Run → Except Fault Item
  | .copied c => .ok (.copied c)
  | .letters c count =>
      match Field.ofLetter? c with
      | some meaning => .ok (.field meaning count)
      | none => .error (.illegalLetter c)

/-- The items of the runs, or the fault of the leftmost run that has one. -/
def itemsOfRuns : List Run → Except Fault (List Item)
  | [] => .ok []
  | run :: rest =>
      match run.item with
      | .error fault => .error fault
      | .ok item => (itemsOfRuns rest).map (item :: ·)

/-- Reads a date pattern. -/
def read (pattern : List Char) : Except Fault (List Item) :=
  let (ms, endsQuoted) := marks false pattern
  match itemsOfRuns (runs ms) with
  | .error fault => .error fault
  | .ok items => if endsQuoted then .error .unterminatedQuote else .ok items

end Pattern

end MessageArchive.Calendar
