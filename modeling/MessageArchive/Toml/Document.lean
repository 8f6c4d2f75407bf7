import MessageArchive.Toml.Scalar
import MessageArchive.Toml.Text

set_option autoImplicit false

/-! # TOML documents

A document is read line by line: a header says which table the keys below it belong to. Arrays and
inline tables may be nested to a limited depth, and a dotted key has a limited number of names.
-/

namespace MessageArchive.Toml

/-- Arrays and inline tables may be nested this deep. -/
def depthLimit : Nat := 79

/-- A dotted key may have this many names. -/
def keyLimit : Nat := 79

/-! ## Keys -/

/-- The characters of a name without quotes. -/
def isBare (c : Char) : Bool := c.isAlphanum || c == '-' || c == '_'

/-- Reads one name of a key. -/
def name? : List Char → Option (String × List Char)
  | [] => none
  | '"' :: rest =>
      (basic (rest.length + 1) rest).map fun (text, left) => (String.ofList text, left)
  | '\'' :: rest => (literal rest).map fun (text, left) => (String.ofList text, left)
  | c :: rest =>
      if isBare c then
        some (String.ofList (c :: rest.takeWhile isBare), rest.dropWhile isBare)
      else none

/-- Reads names with dots between them. -/
def names? : Nat → List Char → Option (List String × List Char)
  | 0, _ => none
  | more + 1, s =>
      (name? (skipSpace s)).bind fun (name, rest) =>
        match skipSpace rest with
        | '.' :: rest => (names? more rest).map fun (names, left) => (name :: names, left)
        | rest => some ([name], rest)

/-- Reads a key. -/
def key? (s : List Char) : Option (List String × List Char) := names? keyLimit s

/-! ## Values -/

/-- Reads the values of an array after its opening bracket, given a reader of values. -/
def arrayItems (value : List Char → Option (Value × List Char)) :
    Nat → List Char → Option (List Value × List Char)
  | 0, _ => none
  | more + 1, s =>
      match skipLines s with
      | ']' :: rest => some ([], rest)
      | s =>
          (value s).bind fun (v, rest) =>
            match skipLines rest with
            | ',' :: rest =>
                (arrayItems value more rest).map fun (items, left) => (v :: items, left)
            | ']' :: rest => some ([v], rest)
            | _ => none

/-- Reads the keys of an inline table, given a reader of values. -/
def inlineMembers (value : List Char → Option (Value × List Char)) :
    Nat → List Char → Members → Option (Members × List Char)
  | 0, _, _ => none
  | more + 1, s, members =>
      (key? s).bind fun (names, rest) =>
        match rest with
        | '=' :: rest =>
            (value (skipSpace rest)).bind fun (v, rest) =>
              (setPath names v members).bind fun members =>
                match skipSpace rest with
                | ',' :: rest => inlineMembers value more rest members
                | '\x7d' :: rest => some (members, rest)
                | _ => none
        | _ => none

/-- Reads a value in which arrays and inline tables are nested at most `depth` deep. -/
def value? : (depth : Nat) → List Char → Option (Value × List Char)
  | _, [] => none
  | depth, '[' :: rest =>
      match depth with
      | 0 => none
      | depth + 1 =>
          (arrayItems (value? depth) (rest.length + 1) rest).map fun (items, left) =>
            (.array items, left)
  | depth, '\x7b' :: rest =>
      match depth with
      | 0 => none
      | depth + 1 =>
          match skipSpace rest with
          | '\x7d' :: left => some (.table .inline [], left)
          | s =>
              (inlineMembers (value? depth) (rest.length + 1) s []).map fun (members, left) =>
                (.table .inline members, left)
  | _, c :: rest =>
      if c = '"' ∨ c = '\'' then (string? (c :: rest)).map fun (text, left) => (.string text, left)
      else if c = 't' ∨ c = 'f' then word? (c :: rest)
      else numberOrDate? (c :: rest)

/-! ## Lines -/

/-- What has been read of a document: its tables, and the header that the next keys stand below. -/
structure Document where
  members : Members := []
  header : List String := []

/-- Reads a header after its first bracket. -/
def Document.readHeader (d : Document) : List Char → Option (Document × List Char)
  | '[' :: rest =>
      (key? rest).bind fun (names, rest) =>
        match rest, names.getLast? with
        | ']' :: ']' :: rest, some key =>
            (within (openElement key) names.dropLast d.members).map fun members =>
              (⟨members, names⟩, rest)
        | _, _ => none
  | s =>
      (key? s).bind fun (names, rest) =>
        match rest, names.getLast? with
        | ']' :: rest, some key =>
            (within (openTable key) names.dropLast d.members).map fun members =>
              (⟨members, names⟩, rest)
        | _, _ => none

/-- Reads a key and its value. -/
def Document.readPair (d : Document) (s : List Char) : Option (Document × List Char) :=
  (key? s).bind fun (names, rest) =>
    match rest with
    | '=' :: rest =>
        (value? depthLimit (skipSpace rest)).bind fun (v, rest) =>
          (within (setPath names v) d.header d.members).map fun members =>
            ({ d with members }, rest)
    | _ => none

/-- Reads a header or a key and its value. -/
def Document.readLine (d : Document) : List Char → Option (Document × List Char)
  | '[' :: rest => d.readHeader rest
  | s => d.readPair s

/-- Reads lines up to the end of a text. -/
def Document.readLines : Nat → Document → List Char → Option Document
  | 0, _, _ => none
  | more + 1, d, s =>
      match skipSpace s with
      | [] => some d
      | '#' :: rest => (lineEnd? ('#' :: rest)).bind fun rest => d.readLines more rest
      | s =>
          match newline? s with
          | some rest => d.readLines more rest
          | none =>
              (d.readLine s).bind fun (d, rest) =>
                (lineEnd? rest).bind fun rest => d.readLines more rest

/-- The text without the mark that says that it is Unicode. -/
def withoutMark : List Char → List Char
  | '\ufeff' :: rest => rest
  | s => s

/-- Reads a TOML text. -/
def read? (text : String) : Option Members :=
  let s := withoutMark text.toList
  (Document.readLines (s.length + 1) {} s).map Document.members

end MessageArchive.Toml
