import MessageArchive.Text.Hex
import MessageArchive.Text.Hidden

set_option autoImplicit false

/-! # Quoted text

A text in double quotes, as it is shown in messages to people: quotes, backslashes and hidden
characters are escaped, so that the text can be told from what stands around it.
-/

namespace MessageArchive.Text

/-- A hidden character, given by its number. -/
def numberEscape (c : Char) : List Char :=
  '\\' :: 'u' :: '\x7b' :: hexOfNat c.toNat ++ ['\x7d']

/-- A character inside quoted text. -/
def quotedChar (c : Char) : List Char :=
  if c = '"' then ['\\', '"']
  else if c = '\\' then ['\\', '\\']
  else if c = '\n' then ['\\', 'n']
  else if c = '\r' then ['\\', 'r']
  else if c = '\t' then ['\\', 't']
  else if c = '\x00' then ['\\', '0']
  else if isHidden c then numberEscape c
  else [c]

/-- A text in double quotes. -/
def quoted (s : String) : String :=
  String.ofList ('"' :: s.toList.flatMap quotedChar ++ ['"'])

end MessageArchive.Text
