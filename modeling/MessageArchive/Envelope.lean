import MessageArchive.Json.Value
import MessageArchive.Message
import MessageArchive.ReadError
import MessageArchive.Toml.Document

set_option autoImplicit false

/-! # Message envelopes

A message is read from a JSON text or from a TOML text. Only its id has to be there; the other texts
are empty and the properties are none where they are left out. Members of other names are passed
over. In JSON the message may also be an array of its members, in the order in which `Message`
declares them.
-/

namespace MessageArchive

/-! ## JSON -/

namespace Json

/-- The text that a value is. -/
def Value.text? : Value → Option String
  | .string text => text
  | _ => none

/-- The members of an object as a map, with each value read by `f`. Of several values of one name
the last one counts. -/
def readMap {α : Type} (f : Value → Option α) : List (Option String × Value) →
    TextMap α → Option (TextMap α)
  | [], m => some m
  | (none, _) :: _, _ => none
  | (some name, v) :: rest, m => (f v).bind fun a => readMap f rest (m.insert name a)

/-- The map that a value is. -/
def Value.map? {α : Type} (f : Value → Option α) : Value → Option (TextMap α)
  | .object members => readMap f members .empty
  | _ => none

/-- The properties that a value is. -/
def Value.properties? (v : Value) : Option Properties :=
  (v.map? fun names => names.map? Value.text?).map Properties.mk

/-- The values of a name among the members of an object. -/
def valuesOf (name : String) (members : List (Option String × Value)) : List Value :=
  (members.filter fun member => member.1 == some name).map Prod.snd

/-- Reads a member that occurs at most once, and gives `missing` where it does not occur. -/
def readMember {α : Type} (f : Value → Option α) (missing : Option α) (name : String)
    (members : List (Option String × Value)) : Option α :=
  match valuesOf name members with
  | [] => missing
  | [v] => f v
  | _ => none

/-- The message that the members of an object are. -/
def messageOfMembers? (members : List (Option String × Value)) : Option Message :=
  if members.any fun member => member.1.isNone then none
  else do
    let id ← readMember Value.text? none "id" members
    let fromParty ← readMember Value.text? (some "") "from_party" members
    let toParty ← readMember Value.text? (some "") "to_party" members
    let fromService ← readMember Value.text? (some "") "from_service" members
    let toService ← readMember Value.text? (some "") "to_service" members
    let properties ← readMember Value.properties? (some .empty) "properties" members
    return { id, fromParty, toParty, fromService, toService, properties }

/-- The text at a place of an array, or the empty text after its end. -/
def itemText (items : List Value) (place : Nat) : Option String :=
  match items[place]? with
  | none => some ""
  | some v => v.text?

/-- The message that the items of an array are. -/
def messageOfItems? (items : List Value) : Option Message :=
  if items.isEmpty || 6 < items.length then none
  else do
    let id ← itemText items 0
    let fromParty ← itemText items 1
    let toParty ← itemText items 2
    let fromService ← itemText items 3
    let toService ← itemText items 4
    let properties ← match items[5]? with
      | none => some .empty
      | some v => v.properties?
    return { id, fromParty, toParty, fromService, toService, properties }

/-- The message that a value is. -/
def Value.message? : Value → Option Message
  | .object members => messageOfMembers? members
  | .array items => messageOfItems? items
  | _ => none

end Json

/-! ## TOML -/

namespace Toml

/-- The members of a table as a map, with each value read by `f`. -/
def readMap {α : Type} (f : Value → Option α) : Members → TextMap α → Option (TextMap α)
  | [], m => some m
  | (name, v) :: rest, m => (f v).bind fun a => readMap f rest (m.insert name a)

/-- The one member that a date has when it is taken for a table of texts. -/
def dateMember : String := "$__toml_private_datetime"

/-- The names that a value holds with their texts. -/
def Value.names? : Value → Option (TextMap String)
  | .table _ members => readMap Value.text? members .empty
  | .date text => some (TextMap.empty.insert dateMember text)
  | _ => none

/-- The properties that a value is. -/
def Value.properties? : Value → Option Properties
  | .table _ members => (readMap Value.names? members .empty).map Properties.mk
  | _ => none

/-- The message that the members of a table are. -/
def message? (members : Members) : Option Message := do
  let id ← readMember Value.text? none "id" members
  let fromParty ← readMember Value.text? (some "") "from_party" members
  let toParty ← readMember Value.text? (some "") "to_party" members
  let fromService ← readMember Value.text? (some "") "from_service" members
  let toService ← readMember Value.text? (some "") "to_service" members
  let properties ← readMember Value.properties? (some .empty) "properties" members
  return { id, fromParty, toParty, fromService, toService, properties }

end Toml

/-! ## Files -/

namespace Message

/-- Reads a message from a JSON text. -/
def ofJson? (text : String) : Option Message := (Json.read? text).bind Json.Value.message?

/-- Reads a message from a TOML text. -/
def ofToml? (text : String) : Option Message := (Toml.read? text).bind Toml.message?

/-- Whether a path is that of a JSON file: its extension says so, in letters of any case. -/
def isJsonPath (p : Path) : Bool :=
  p.extension?.any fun extension => extension.toList.map Char.toLower == ['j', 's', 'o', 'n']

/-- Reads a message from a file. -/
def load (t : FileTree) (p : Path) : Except ReadError Message :=
  t.readDocument .envelope p (if isJsonPath p then ofJson? else ofToml?)

end Message

end MessageArchive
