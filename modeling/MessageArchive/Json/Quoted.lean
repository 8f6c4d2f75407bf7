import MessageArchive.Properties
import MessageArchive.Text.Hex

set_option autoImplicit false

/-! # JSON text

Strings and message properties as compact JSON. In a string the quote, the backslash and the
control characters below U+0020 are escaped, and nothing else is.
-/

namespace MessageArchive.Json

open MessageArchive.Text

/-- A character inside a JSON string. -/
def escape (c : Char) : List Char :=
  if c = '"' then ['\\', '"']
  else if c = '\\' then ['\\', '\\']
  else if c = '\x08' then ['\\', 'b']
  else if c = '\x0c' then ['\\', 'f']
  else if c = '\n' then ['\\', 'n']
  else if c = '\r' then ['\\', 'r']
  else if c = '\t' then ['\\', 't']
  else if c.toNat < 0x20 then
    ['\\', 'u', '0', '0', hexDigit (c.toNat / 16), hexDigit (c.toNat % 16)]
  else [c]

/-- A text as a JSON string. -/
def quote (s : String) : List Char := '"' :: s.toList.flatMap escape ++ ['"']

/-- Members of a JSON object, given as their texts. -/
def braced (members : List (List Char)) : List Char :=
  '\x7b' :: List.intercalate [','] members ++ ['\x7d']

/-- A member of a JSON object, given its name and the text of its value. -/
def member (name : String) (value : List Char) : List Char := quote name ++ ':' :: value

/-- Names and their values as a JSON object. -/
def ofNames (names : TextMap String) : List Char :=
  braced (names.entries.map fun entry => member entry.1 (quote entry.2))

/-- Properties as a JSON object of objects, one for each namespace. -/
def ofProperties (p : Properties) : List Char :=
  braced (p.byNamespace.entries.map fun entry => member entry.1 (ofNames entry.2))

end MessageArchive.Json
