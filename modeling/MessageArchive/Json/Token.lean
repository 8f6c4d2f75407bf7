import MessageArchive.Text.Hex

set_option autoImplicit false

/-! # Tokens of JSON

A JSON text is a sequence of tokens with white space between them: punctuation, strings, numbers
and the three words. Numbers keep no value, since nothing that is read has use for one. A string
whose escapes hold half of a surrogate pair without the other half is a token, but has no text.
-/

namespace MessageArchive.Json

open MessageArchive.Text

inductive Token where
  | openBracket
  | closeBracket
  | openBrace
  | closeBrace
  | comma
  | colon
  /-- A string, and its text if it has one. -/
  | string (text : Option String)
  | number
  | true
  | false
  | null
  deriving DecidableEq, Repr

/-! ## Strings -/

/-- A part of a string: a character, or a code unit of UTF-16 given by its number. -/
inductive StringPart where
  | char (c : Char)
  | unit (n : Nat)
  deriving DecidableEq, Repr

/-- The character that a backslash and a letter stand for. -/
def unescape? : Char → Option Char
  | '"' => some '"'
  | '\\' => some '\\'
  | '/' => some '/'
  | 'b' => some '\x08'
  | 'f' => some '\x0c'
  | 'n' => some '\n'
  | 'r' => some '\r'
  | 't' => some '\t'
  | _ => none

/-- The number that four hexadecimal digits stand for. -/
def hex4? (a b c d : Char) : Option Nat :=
  match hexValue? a, hexValue? b, hexValue? c, hexValue? d with
  | some a, some b, some c, some d => some (((a * 16 + b) * 16 + c) * 16 + d)
  | _, _, _, _ => none

/-- Reads a string after its opening quote, up to its closing quote. -/
def stringParts : List Char → Option (List StringPart × List Char)
  | [] => none
  | '"' :: rest => some ([], rest)
  | '\\' :: 'u' :: a :: b :: c :: d :: rest =>
      match hex4? a b c d with
      | none => none
      | some n => (stringParts rest).map fun (parts, left) => (.unit n :: parts, left)
  | '\\' :: e :: rest =>
      match unescape? e with
      | none => none
      | some c => (stringParts rest).map fun (parts, left) => (.char c :: parts, left)
  | c :: rest =>
      if c.toNat < 0x20 ∨ c = '\\' then none
      else (stringParts rest).map fun (parts, left) => (.char c :: parts, left)

/-- Joins the two halves of a surrogate pair. -/
def joinSurrogates (high low : Nat) : Char :=
  Char.ofNat (0x10000 + (high - 0xD800) * 0x400 + (low - 0xDC00))

/-- The characters of a string's parts. Half of a surrogate pair alone is no character. -/
def textOfParts : List StringPart → Option (List Char)
  | [] => some []
  | .char c :: rest => (textOfParts rest).map (c :: ·)
  | .unit high :: .unit low :: rest =>
      if 0xD800 ≤ high ∧ high < 0xDC00 then
        if 0xDC00 ≤ low ∧ low < 0xE000 then
          (textOfParts rest).map (joinSurrogates high low :: ·)
        else none
      else if 0xDC00 ≤ high ∧ high < 0xE000 then none
      else (textOfParts (.unit low :: rest)).map (Char.ofNat high :: ·)
  | .unit n :: rest =>
      if 0xD800 ≤ n ∧ n < 0xE000 then none else (textOfParts rest).map (Char.ofNat n :: ·)

theorem length_stringParts_lt {s rest : List Char} {parts : List StringPart}
    (h : stringParts s = some (parts, rest)) : rest.length < s.length := by
  fun_induction stringParts s generalizing parts with
  | case1 => simp at h
  | case2 rest' =>
    obtain ⟨-, rfl⟩ := Prod.mk.inj (Option.some.inj h)
    simp
  | case3 => simp at h
  | case4 a b c d rest' n hn ih =>
    obtain ⟨⟨ps, left⟩, hl, heq⟩ := Option.map_eq_some_iff.1 h
    obtain ⟨-, rfl⟩ := Prod.mk.inj heq
    have := ih hl
    simp
    omega
  | case5 => simp at h
  | case6 e rest' _ c hc ih =>
    obtain ⟨⟨ps, left⟩, hl, heq⟩ := Option.map_eq_some_iff.1 h
    obtain ⟨-, rfl⟩ := Prod.mk.inj heq
    have := ih hl
    simp
    omega
  | case7 => simp at h
  | case8 c rest' _ _ _ _ ih =>
    obtain ⟨⟨ps, left⟩, hl, heq⟩ := Option.map_eq_some_iff.1 h
    obtain ⟨-, rfl⟩ := Prod.mk.inj heq
    have := ih hl
    simp
    omega

/-! ## Numbers -/

/-- What follows one digit and those after it. -/
def afterDigits : List Char → Option (List Char)
  | [] => none
  | c :: rest => if c.isDigit then some (rest.dropWhile Char.isDigit) else none

/-- What follows the whole part of a number. It has no leading zeros. -/
def afterWhole : List Char → Option (List Char)
  | '0' :: rest => some rest
  | s => afterDigits s

/-- What follows the fraction of a number, if it has one. -/
def afterFraction : List Char → Option (List Char)
  | '.' :: rest => afterDigits rest
  | s => some s

/-- What follows the sign of an exponent, if it has one. -/
def afterExponentSign : List Char → List Char
  | '+' :: rest => rest
  | '-' :: rest => rest
  | s => s

/-- What follows the exponent of a number, if it has one. -/
def afterExponent : List Char → Option (List Char)
  | 'e' :: rest => afterDigits (afterExponentSign rest)
  | 'E' :: rest => afterDigits (afterExponentSign rest)
  | s => some s

/-- What follows a number without a sign. -/
def afterUnsigned (s : List Char) : Option (List Char) :=
  (afterWhole s).bind fun rest => (afterFraction rest).bind afterExponent

/-- What follows a number. -/
def afterNumber : List Char → Option (List Char)
  | '-' :: rest => afterUnsigned rest
  | s => afterUnsigned s

theorem length_dropWhile_le (p : Char → Bool) (s : List Char) :
    (s.dropWhile p).length ≤ s.length := by
  induction s with
  | nil => simp
  | cons c s ih =>
      rw [List.dropWhile_cons]
      split
      · simp only [List.length_cons]
        omega
      · simp

theorem length_afterDigits_lt {s rest : List Char} (h : afterDigits s = some rest) :
    rest.length < s.length := by
  cases s with
  | nil => simp [afterDigits] at h
  | cons c s =>
      simp only [afterDigits] at h
      split at h
      · have := length_dropWhile_le Char.isDigit s
        obtain rfl := Option.some.inj h
        simp only [List.length_cons]
        omega
      · simp at h

theorem length_afterWhole_lt {s rest : List Char} (h : afterWhole s = some rest) :
    rest.length < s.length := by
  unfold afterWhole at h
  split at h
  · obtain rfl := Option.some.inj h
    simp
  · exact length_afterDigits_lt h

theorem length_afterFraction_le {s rest : List Char} (h : afterFraction s = some rest) :
    rest.length ≤ s.length := by
  unfold afterFraction at h
  split at h
  · have := length_afterDigits_lt h
    simp only [List.length_cons]
    omega
  · obtain rfl := Option.some.inj h
    exact Nat.le_refl _

theorem length_afterExponentSign_le (s : List Char) : (afterExponentSign s).length ≤ s.length := by
  unfold afterExponentSign
  split <;> simp

theorem length_afterExponent_le {s rest : List Char} (h : afterExponent s = some rest) :
    rest.length ≤ s.length := by
  unfold afterExponent at h
  split at h
  · next r =>
    have h1 := length_afterDigits_lt h
    have h2 := length_afterExponentSign_le r
    simp only [List.length_cons]
    omega
  · next r =>
    have h1 := length_afterDigits_lt h
    have h2 := length_afterExponentSign_le r
    simp only [List.length_cons]
    omega
  · obtain rfl := Option.some.inj h
    exact Nat.le_refl _

theorem length_afterUnsigned_lt {s rest : List Char} (h : afterUnsigned s = some rest) :
    rest.length < s.length := by
  obtain ⟨r, h1, h⟩ := Option.bind_eq_some_iff.1 h
  obtain ⟨q, h2, h3⟩ := Option.bind_eq_some_iff.1 h
  have := length_afterWhole_lt h1
  have := length_afterFraction_le h2
  have := length_afterExponent_le h3
  omega

theorem length_afterNumber_lt {s rest : List Char} (h : afterNumber s = some rest) :
    rest.length < s.length := by
  unfold afterNumber at h
  split at h
  · have := length_afterUnsigned_lt h
    simp only [List.length_cons]
    omega
  · exact length_afterUnsigned_lt h

/-! ## Texts -/

/-- The white space of JSON. -/
def isSpace (c : Char) : Bool := c == ' ' || c == '\t' || c == '\n' || c == '\r'

/-- The token of a punctuation character. -/
def punctuation? : Char → Option Token
  | '[' => some .openBracket
  | ']' => some .closeBracket
  | '\x7b' => some .openBrace
  | '\x7d' => some .closeBrace
  | ',' => some .comma
  | ':' => some .colon
  | _ => none

/-- Reads the token a text begins with. -/
def token? : List Char → Option (Token × List Char)
  | [] => none
  | 't' :: 'r' :: 'u' :: 'e' :: rest => some (.true, rest)
  | 'f' :: 'a' :: 'l' :: 's' :: 'e' :: rest => some (.false, rest)
  | 'n' :: 'u' :: 'l' :: 'l' :: rest => some (.null, rest)
  | '"' :: rest =>
      (stringParts rest).map fun (parts, left) =>
        (.string ((textOfParts parts).map String.ofList), left)
  | c :: rest =>
      match punctuation? c with
      | some t => some (t, rest)
      | none => (afterNumber (c :: rest)).map fun left => (.number, left)

theorem length_token?_lt {s rest : List Char} {t : Token} (h : token? s = some (t, rest)) :
    rest.length < s.length := by
  unfold token? at h
  split at h
  · simp at h
  · obtain ⟨-, rfl⟩ := Prod.mk.inj (Option.some.inj h)
    simp
    omega
  · obtain ⟨-, rfl⟩ := Prod.mk.inj (Option.some.inj h)
    simp
    omega
  · obtain ⟨-, rfl⟩ := Prod.mk.inj (Option.some.inj h)
    simp
    omega
  · obtain ⟨⟨ps, left⟩, hl, heq⟩ := Option.map_eq_some_iff.1 h
    obtain ⟨-, rfl⟩ := Prod.mk.inj heq
    have := length_stringParts_lt hl
    simp only [List.length_cons]
    omega
  · split at h
    · obtain ⟨-, rfl⟩ := Prod.mk.inj (Option.some.inj h)
      simp
    · obtain ⟨left, hl, heq⟩ := Option.map_eq_some_iff.1 h
      obtain ⟨-, rfl⟩ := Prod.mk.inj heq
      exact length_afterNumber_lt hl

/-- Reads all tokens of a text. -/
def tokens? : List Char → Option (List Token)
  | [] => some []
  | c :: rest =>
      if isSpace c then tokens? rest
      else
        match _read : token? (c :: rest) with
        | none => none
        | some (t, left) => (tokens? left).map (t :: ·)
termination_by s => s.length
decreasing_by
  · simp
  · exact length_token?_lt _read

end MessageArchive.Json
