import MessageArchive.Json.Token

set_option autoImplicit false

/-! # JSON values

Tokens are put together by a machine that takes one token at a time. It keeps the arrays and
objects that are still open, the innermost first, so values may be nested to any depth.
-/

namespace MessageArchive.Json

/-- A JSON value. Numbers are kept without their value. Members of an object stand in the order of
the text, and a name may occur more than once. -/
inductive Value where
  | null
  | bool (b : Bool)
  | number
  | string (text : Option String)
  | array (items : List Value)
  | object (members : List (Option String × Value))

/-- An array or object that is still open, with what is complete of it, the last item first. -/
inductive Frame where
  | array (items : List Value)
  /-- The value of the member with this name is being read. -/
  | object (members : List (Option String × Value)) (name : Option String)

/-- What has to come next. -/
inductive Expect where
  | value
  /-- A value, or the end of the array that has just been opened. -/
  | firstItem
  /-- A name, or the end of the object that has just been opened. -/
  | firstName
  /-- A name, after the members read so far. -/
  | name (members : List (Option String × Value))
  | colon (members : List (Option String × Value)) (name : Option String)
  /-- What follows a complete value. -/
  | after (v : Value)

/-- The open arrays and objects, and what has to come next. -/
structure Machine where
  frames : List Frame
  expect : Expect

/-- The value of a token that is a value by itself. -/
def Token.value? : Token → Option Value
  | .string text => some (.string text)
  | .number => some .number
  | .true => some (.bool Bool.true)
  | .false => some (.bool Bool.false)
  | .null => some .null
  | _ => none

/-- Begins a value. -/
def Machine.begin (frames : List Frame) (t : Token) : Option Machine :=
  match t with
  | .openBracket => some ⟨frames, .firstItem⟩
  | .openBrace => some ⟨frames, .firstName⟩
  | t => t.value?.map fun v => ⟨frames, .after v⟩

/-- Takes one token. -/
def Machine.step (m : Machine) (t : Token) : Option Machine :=
  match m.expect, t with
  | .value, t => Machine.begin m.frames t
  | .firstItem, .closeBracket => some ⟨m.frames, .after (.array [])⟩
  | .firstItem, t => Machine.begin (.array [] :: m.frames) t
  | .firstName, .closeBrace => some ⟨m.frames, .after (.object [])⟩
  | .firstName, .string name => some ⟨m.frames, .colon [] name⟩
  | .firstName, _ => none
  | .name members, .string name => some ⟨m.frames, .colon members name⟩
  | .name _, _ => none
  | .colon members name, .colon => some ⟨.object members name :: m.frames, .value⟩
  | .colon _ _, _ => none
  | .after v, t =>
      match m.frames, t with
      | .array items :: frames, .comma => some ⟨.array (v :: items) :: frames, .value⟩
      | .array items :: frames, .closeBracket =>
          some ⟨frames, .after (.array (v :: items).reverse)⟩
      | .object members name :: frames, .comma => some ⟨frames, .name ((name, v) :: members)⟩
      | .object members name :: frames, .closeBrace =>
          some ⟨frames, .after (.object ((name, v) :: members).reverse)⟩
      | _, _ => none

/-- Takes tokens one by one. -/
def Machine.run : Machine → List Token → Option Machine
  | m, [] => some m
  | m, t :: rest =>
      match m.step t with
      | none => none
      | some next => next.run rest

/-- The value that the tokens are. -/
def ofTokens? (tokens : List Token) : Option Value :=
  match Machine.run ⟨[], .value⟩ tokens with
  | some ⟨[], .after v⟩ => some v
  | _ => none

/-- Reads a JSON text. -/
def read? (text : String) : Option Value := (tokens? text.toList).bind ofTokens?

end MessageArchive.Json
