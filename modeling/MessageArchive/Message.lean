import MessageArchive.Properties

set_option autoImplicit false

/-! # Messages

The data of a message that the name of its archive file is made from.
-/

namespace MessageArchive

/-- A message without its payload. -/
structure Message where
  id : String
  fromParty : String := ""
  toParty : String := ""
  fromService : String := ""
  toService : String := ""
  properties : Properties := .empty
  deriving DecidableEq, Repr

/-- What a template is resolved against: the five texts of a message, and a way to look up its
properties. -/
structure Context where
  id : String
  fromParty : String
  toParty : String
  fromService : String
  toService : String
  /-- The value of a property, given its namespace and its name, if it is set. -/
  property : String → String → Option String

/-- A message as templates see it. -/
def Message.context (m : Message) : Context where
  id := m.id
  fromParty := m.fromParty
  toParty := m.toParty
  fromService := m.fromService
  toService := m.toService
  property := m.properties.get?

end MessageArchive
