set_option autoImplicit false

/-! # TOML values

Values of a TOML document, and how its tables grow. A table remembers how it came about, since this
decides what may still be added to it:

* an inline table is complete,
* a table with a header of its own takes the keys that stand below the header,
* a table that is only implied by longer headers may still get a header of its own,
* a table that is implied by dotted keys takes further dotted keys, and no header.

Each operation fails where the document would define something twice.
-/

namespace MessageArchive.Toml

/-- How a table came about. -/
inductive Origin where
  | inline
  | header
  | implied
  | dotted
  deriving DecidableEq, Repr

/-- A TOML value. Floats are kept without their value, and dates as text. The elements of an array
of tables stand in reverse, the table that is still open first. -/
inductive Value where
  | string (text : String)
  | integer (n : Int)
  | float
  | boolean (b : Bool)
  | date (text : String)
  | array (items : List Value)
  | table (origin : Origin) (members : List (String × Value))
  | tables (elements : List (List (String × Value)))

/-- The keys of a table and their values. -/
abbrev Members := List (String × Value)

/-- Replaces the value of a key by what `f` makes of it, or of its absence. -/
def update (key : String) (f : Option Value → Option Value) : Members → Option Members
  | [] => (f none).map fun v => [(key, v)]
  | (k, v) :: rest =>
      if k = key then (f (some v)).map fun w => (k, w) :: rest
      else (update key f rest).map fun rest => (k, v) :: rest

/-- The value of a key. -/
def find? (key : String) : Members → Option Value
  | [] => none
  | (k, v) :: rest => if k = key then some v else find? key rest

/-! ## Headers -/

/-- Changes the members of the table that a header names. Tables on the way to it that are missing
are implied. -/
def within (f : Members → Option Members) : List String → Members → Option Members
  | [], members => f members
  | key :: path, members =>
      update key
        (fun
          | none => (within f path []).map (Value.table .implied)
          | some (.table .inline _) => none
          | some (.table origin inner) => (within f path inner).map (Value.table origin)
          | some (.tables (last :: before)) =>
              (within f path last).map fun last => .tables (last :: before)
          | some _ => none)
        members

/-- Gives a table a header. -/
def openTable (key : String) : Members → Option Members :=
  update key fun
    | none => some (.table .header [])
    | some (.table .implied members) => some (.table .header members)
    | some _ => none

/-- Begins the next element of an array of tables. -/
def openElement (key : String) : Members → Option Members :=
  update key fun
    | none => some (.tables [[]])
    | some (.tables elements) => some (.tables ([] :: elements))
    | some _ => none

/-! ## Keys -/

/-- Sets a key that is reached over the given keys. The table that holds the key itself is either
the one that the keys start in, or one that dotted keys imply. -/
def setKey (key : String) (value : Value) : List String → Members → Option Members
  | [], members =>
      update key
        (fun
          | none => some value
          | some _ => none)
        members
  | next :: path, members =>
      update next
        (fun
          | none => (setKey key value path []).map (Value.table .dotted)
          | some (.table .dotted inner) => (setKey key value path inner).map (Value.table .dotted)
          -- A longer header implies this table, so the key itself must not go into it.
          | some (.table .implied inner) =>
              if path.isEmpty then none
              else (setKey key value path inner).map (Value.table .implied)
          | some (.tables (last :: before)) =>
              if path.isEmpty then none
              else (setKey key value path last).map fun last => .tables (last :: before)
          | some _ => none)
        members

/-- Sets the key that a list of at least one name stands for. -/
def setPath (names : List String) (value : Value) (members : Members) : Option Members :=
  match names.getLast? with
  | none => none
  | some key => setKey key value names.dropLast members

/-! ## Reading values -/

/-- The text that a value is. -/
def Value.text? : Value → Option String
  | .string text => some text
  | _ => none

/-- Reads the member of a name, and gives `missing` where there is none. -/
def readMember {α : Type} (f : Value → Option α) (missing : Option α) (name : String)
    (members : Members) : Option α :=
  match find? name members with
  | none => missing
  | some v => f v

end MessageArchive.Toml
