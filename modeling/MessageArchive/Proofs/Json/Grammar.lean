import Mathlib.Tactic.SplitIfs
import MessageArchive.Json.Quoted
import MessageArchive.Json.Token

set_option autoImplicit false

/-! # The grammar of JSON

What is a JSON text is laid down over the text itself, without tokens and without a reader: numbers,
strings with their escapes, arrays and objects, with gaps of white space around values, names and the
whole (`IsJson`). A string that escapes half of a surrogate pair alone is JSON as well, though it
spells no text; `Spells` says which text a string spells, however its characters are escaped.

`IsObject` is an object whose members are known: by the texts that their names spell, and by their
values as they are written.
-/

namespace MessageArchive.Json

/-! ## Gaps -/

/-- White space of any length. -/
def Gap (s : List Char) : Prop := ∀ c ∈ s, c ∈ [' ', '\t', '\n', '\r']

/-- The text with a gap on either side. -/
def Padded (core s : List Char) : Prop :=
  ∃ left right, Gap left ∧ Gap right ∧ s = left ++ core ++ right

theorem gap_nil : Gap [] := fun _ h => absurd h List.not_mem_nil

theorem gap_singleton {c : Char} (h : c ∈ [' ', '\t', '\n', '\r']) : Gap [c] := by
  intro d hd
  rwa [List.mem_singleton.1 hd]

theorem padded_self (s : List Char) : Padded s s :=
  ⟨[], [], gap_nil, gap_nil, by rw [List.nil_append, List.append_nil]⟩

/-! ## Numbers -/

/-- One digit or more. -/
def IsDigits (s : List Char) : Prop := s ≠ [] ∧ ∀ c ∈ s, c.isDigit = true

/-- The digits before the point. They do not begin with a zero that another digit follows. -/
def IsWhole (s : List Char) : Prop := s = ['0'] ∨ IsDigits s ∧ s.head? ≠ some '0'

/-- The point and the digits behind it, or nothing. -/
def IsFraction (s : List Char) : Prop := s = [] ∨ ∃ digits, s = '.' :: digits ∧ IsDigits digits

/-- An exponent with or without a sign, or nothing. -/
def IsExponent (s : List Char) : Prop :=
  s = [] ∨ ∃ e sign digits, s = e :: (sign ++ digits) ∧ (e = 'e' ∨ e = 'E') ∧
    (sign = [] ∨ sign = ['+'] ∨ sign = ['-']) ∧ IsDigits digits

def IsNumber (s : List Char) : Prop :=
  ∃ sign whole fraction exponent, s = sign ++ (whole ++ (fraction ++ exponent)) ∧
    (sign = [] ∨ sign = ['-']) ∧ IsWhole whole ∧ IsFraction fraction ∧ IsExponent exponent

/-! ## Strings -/

/-- A hexadecimal digit in either case, and its value. -/
def IsHexDigit (c : Char) (n : Nat) : Prop :=
  "0123456789abcdef".toList[n]? = some c ∨ "0123456789ABCDEF".toList[n]? = some c

/-- The characters that stand behind a backslash for another one or for themselves. -/
def escapes : List (Char × Char) :=
  [('"', '"'), ('\\', '\\'), ('/', '/'), ('b', '\x08'), ('f', '\x0c'), ('n', '\n'), ('r', '\r'),
    ('t', '\t')]

/-- What stands between the quotes of a string, and the characters and the code units of UTF-16 that
it is written in. -/
inductive HasParts : List Char → List StringPart → Prop
  | nil : HasParts [] []
  | plain {c : Char} {s : List Char} {parts : List StringPart} (noControl : 0x20 ≤ c.toNat)
      (noQuote : c ≠ '"') (noBackslash : c ≠ '\\') (more : HasParts s parts) :
      HasParts (c :: s) (.char c :: parts)
  | escape {e c : Char} {s : List Char} {parts : List StringPart} (escaped : (e, c) ∈ escapes)
      (more : HasParts s parts) : HasParts ('\\' :: e :: s) (.char c :: parts)
  | unit {a b c d : Char} {i j k l : Nat} {s : List Char} {parts : List StringPart}
      (first : IsHexDigit a i) (second : IsHexDigit b j) (third : IsHexDigit c k)
      (fourth : IsHexDigit d l) (more : HasParts s parts) :
      HasParts ('\\' :: 'u' :: a :: b :: c :: d :: s)
        (.unit (((i * 16 + j) * 16 + k) * 16 + l) :: parts)

/-- The text that the parts of a string make up. -/
inductive Encodes : List StringPart → List Char → Prop
  | nil : Encodes [] []
  | char (c : Char) {parts : List StringPart} {s : List Char} (more : Encodes parts s) :
      Encodes (.char c :: parts) (c :: s)
  | unit {n : Nat} {c : Char} {parts : List StringPart} {s : List Char} (value : c.toNat = n)
      (more : Encodes parts s) : Encodes (.unit n :: parts) (c :: s)
  | pair {high low : Nat} {c : Char} {parts : List StringPart} {s : List Char}
      (isHigh : 0xD800 ≤ high ∧ high < 0xDC00) (isLow : 0xDC00 ≤ low ∧ low < 0xE000)
      (value : c.toNat = 0x10000 + (high - 0xD800) * 0x400 + (low - 0xDC00))
      (more : Encodes parts s) : Encodes (.unit high :: .unit low :: parts) (c :: s)

/-- A string with the given parts. -/
def IsString (s : List Char) (parts : List StringPart) : Prop :=
  ∃ body, s = '"' :: (body ++ ['"']) ∧ HasParts body parts

/-- A string that spells the text. -/
def Spells (s : List Char) (text : String) : Prop :=
  ∃ parts, IsString s parts ∧ Encodes parts text.toList

/-! ## Values -/

/-- What can be a part of a JSON text. -/
inductive Part where
  | value
  /-- The items of an array with commas between them. -/
  | items
  /-- The members of an object with commas between them. -/
  | members

inductive IsJson : Part → List Char → Prop
  | null : IsJson .value ['n', 'u', 'l', 'l']
  | true : IsJson .value ['t', 'r', 'u', 'e']
  | false : IsJson .value ['f', 'a', 'l', 's', 'e']
  | number {s : List Char} (number : IsNumber s) : IsJson .value s
  | string {s : List Char} {parts : List StringPart} (string : IsString s parts) : IsJson .value s
  | emptyArray {s : List Char} (gap : Gap s) : IsJson .value ('[' :: (s ++ [']']))
  | array {s : List Char} (items : IsJson .items s) : IsJson .value ('[' :: (s ++ [']']))
  | emptyObject {s : List Char} (gap : Gap s) : IsJson .value ('\x7b' :: (s ++ ['\x7d']))
  | object {s : List Char} (members : IsJson .members s) :
      IsJson .value ('\x7b' :: (s ++ ['\x7d']))
  | item {s item : List Char} (value : IsJson .value s) (padded : Padded s item) :
      IsJson .items item
  | moreItems {s s' : List Char} (items : IsJson .items s) (more : IsJson .items s') :
      IsJson .items (s ++ ',' :: s')
  | member {s item name string : List Char} {parts : List StringPart}
      (isString : IsString string parts) (paddedName : Padded string name)
      (value : IsJson .value s) (padded : Padded s item) : IsJson .members (name ++ ':' :: item)
  | moreMembers {s s' : List Char} (members : IsJson .members s) (more : IsJson .members s') :
      IsJson .members (s ++ ',' :: s')

/-- A JSON value as it is written. -/
def IsValue (s : List Char) : Prop := IsJson .value s

/-! ## Objects with known members -/

/-- Members with commas between them: what their names spell, and their values as they are written. -/
inductive AreMembers : List (String × List Char) → List Char → Prop
  | one {name : String} {string before value after : List Char} (spells : Spells string name)
      (paddedName : Padded string before) (padded : Padded value after) :
      AreMembers [(name, value)] (before ++ ':' :: after)
  | more {ms ms' : List (String × List Char)} {s s' : List Char} (members : AreMembers ms s)
      (following : AreMembers ms' s') : AreMembers (ms ++ ms') (s ++ ',' :: s')

/-- The text is an object with the members, in this order. -/
def IsObject (ms : List (String × List Char)) (text : List Char) : Prop :=
  ∃ s, Padded ('\x7b' :: (s ++ ['\x7d'])) text ∧ (ms = [] ∧ Gap s ∨ AreMembers ms s)

/-! ## Compact writing -/

theorem isHexDigit_hexDigit {n : Nat} (h : n < 16) : IsHexDigit (Text.hexDigit n) n := by
  have hall : ∀ m : Fin 16, "0123456789abcdef".toList[m.val]? = some (Text.hexDigit m) := by decide
  exact Or.inl (hall ⟨n, h⟩)

/-- A character is written behind a backslash, as a code unit or as itself. -/
theorem escape_cases (c : Char) :
    (∃ e, (e, c) ∈ escapes ∧ escape c = ['\\', e]) ∨
      (c.toNat < 0x20 ∧ escape c =
        ['\\', 'u', '0', '0', Text.hexDigit (c.toNat / 16), Text.hexDigit (c.toNat % 16)]) ∨
      (0x20 ≤ c.toNat ∧ c ≠ '"' ∧ c ≠ '\\' ∧ escape c = [c]) := by
  unfold escape
  split_ifs with hquote hbackslash h8 h12 h10 h13 h9 hcontrol
  any_goals
    subst c
    exact Or.inl ⟨_, by decide, rfl⟩
  · exact Or.inr (Or.inl ⟨hcontrol, rfl⟩)
  · exact Or.inr (Or.inr ⟨by omega, hquote, hbackslash, rfl⟩)

/-- An escaped character is one part, which makes up the character. -/
theorem exists_part_of_escape (c : Char) :
    ∃ part, (∀ s parts, HasParts s parts → HasParts (escape c ++ s) (part :: parts)) ∧
      ∀ parts s, Encodes parts s → Encodes (part :: parts) (c :: s) := by
  rcases escape_cases c with ⟨e, he, heq⟩ | ⟨hcontrol, heq⟩ | ⟨hplain, hquote, hbackslash, heq⟩
  · rw [heq]
    exact ⟨.char c, fun s parts more => .escape he more, fun _ _ => .char c⟩
  · have hzero : IsHexDigit '0' 0 := Or.inl rfl
    have hhigh : IsHexDigit (Text.hexDigit (c.toNat / 16)) (c.toNat / 16) :=
      isHexDigit_hexDigit (by omega)
    have hlow : IsHexDigit (Text.hexDigit (c.toNat % 16)) (c.toNat % 16) :=
      isHexDigit_hexDigit (by omega)
    have hvalue : c.toNat = ((0 * 16 + 0) * 16 + c.toNat / 16) * 16 + c.toNat % 16 := by omega
    rw [heq]
    exact ⟨.unit _, fun s parts more => .unit hzero hzero hhigh hlow more, fun _ _ => .unit hvalue⟩
  · rw [heq]
    exact ⟨.char c, fun s parts more => .plain hplain hquote hbackslash more, fun _ _ => .char c⟩

/-- A text is spelled by the string that escapes no more than it has to. -/
theorem spells_quote (s : String) : Spells (quote s) s := by
  have hbody : ∀ text : List Char,
      ∃ parts, HasParts (text.flatMap escape) parts ∧ Encodes parts text := by
    intro text
    induction text with
    | nil => exact ⟨[], .nil, .nil⟩
    | cons c text ih =>
        obtain ⟨parts, hparts, hencodes⟩ := ih
        obtain ⟨part, hpart, hchar⟩ := exists_part_of_escape c
        exact ⟨part :: parts, hpart _ _ hparts, hchar _ _ hencodes⟩
  obtain ⟨parts, hparts, hencodes⟩ := hbody s.toList
  exact ⟨parts, ⟨_, rfl, hparts⟩, hencodes⟩

theorem areMembers_intercalate (ms : List (String × List Char)) (hne : ms ≠ []) :
    AreMembers ms (List.intercalate [','] (ms.map fun m => member m.1 m.2)) := by
  have hone : ∀ m : String × List Char, AreMembers [m] (member m.1 m.2) := fun m =>
    .one (spells_quote m.1) (padded_self _) (padded_self _)
  induction ms with
  | nil => exact absurd rfl hne
  | cons m rest ih =>
      cases rest with
      | nil => simpa [List.intercalate] using hone m
      | cons m' rest =>
          have hmore := AreMembers.more (hone m) (ih (List.cons_ne_nil _ _))
          simpa [List.intercalate] using hmore

/-- Members that are written one behind the other, in braces, are an object. -/
theorem isObject_braced (ms : List (String × List Char)) :
    IsObject ms (braced (ms.map fun m => member m.1 m.2)) := by
  refine ⟨_, padded_self _, ?_⟩
  by_cases hne : ms = []
  · subst hne
    exact Or.inl ⟨rfl, gap_nil⟩
  · exact Or.inr (areMembers_intercalate ms hne)

end MessageArchive.Json
