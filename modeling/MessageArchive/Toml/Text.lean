import MessageArchive.Text.Hex
import MessageArchive.Toml.Space

set_option autoImplicit false

/-! # TOML strings

A string is written in double quotes, with escapes, or in single quotes, without. With three quotes
on either side it may run over several lines; a line end right after the opening quotes is left
out, and a backslash at the end of a line leaves out the white space and line ends that follow it.
-/

namespace MessageArchive.Toml

open MessageArchive.Text

/-- The character with the given number, if there is one. -/
def scalar? (n : Nat) : Option Char := if h : n.isValidChar then some (Char.ofNatAux n h) else none

/-- The number that hexadecimal digits stand for. -/
def hexNumber? (digits : List Char) : Option Nat :=
  digits.foldl (fun n c => n.bind fun n => (hexValue? c).map (16 * n + ·)) (some 0)

/-- The character that a backslash and a letter stand for. -/
def unescape? : Char → Option Char
  | 'b' => some '\x08'
  | 't' => some '\t'
  | 'n' => some '\n'
  | 'f' => some '\x0c'
  | 'r' => some '\r'
  | '"' => some '"'
  | '\\' => some '\\'
  | _ => none

/-- Reads what follows the backslash of an escape. -/
def escape? : List Char → Option (Char × List Char)
  | 'u' :: a :: b :: c :: d :: rest =>
      ((hexNumber? [a, b, c, d]).bind scalar?).map fun c => (c, rest)
  | 'U' :: a :: b :: c :: d :: e :: f :: g :: h :: rest =>
      ((hexNumber? [a, b, c, d, e, f, g, h]).bind scalar?).map fun c => (c, rest)
  | e :: rest => (unescape? e).map fun c => (c, rest)
  | [] => none

/-! ## Strings on one line -/

/-- Reads a string in double quotes after its opening quote. -/
def basic : Nat → List Char → Option (List Char × List Char)
  | 0, _ => none
  | _ + 1, [] => none
  | _ + 1, '"' :: rest => some ([], rest)
  | more + 1, '\\' :: rest =>
      (escape? rest).bind fun (c, rest) =>
        (basic more rest).map fun (text, left) => (c :: text, left)
  | more + 1, c :: rest =>
      if isPrintable c then (basic more rest).map fun (text, left) => (c :: text, left) else none

/-- Reads a string in single quotes after its opening quote. -/
def literal : List Char → Option (List Char × List Char)
  | [] => none
  | '\'' :: rest => some ([], rest)
  | c :: rest =>
      if isPrintable c then (literal rest).map fun (text, left) => (c :: text, left) else none

/-! ## Strings over several lines -/

/-- What follows the line end right after the opening quotes. -/
def skipFirstNewline (s : List Char) : List Char := (newline? s).getD s

/-- Reads a run of quotes inside or at the end of a string. Up to two of them belong to the string,
and the three that follow end it. The first component says whether the string goes on. -/
def quotes? (quote : Char) (s : List Char) : Option (Bool × List Char × List Char) :=
  let count := (s.takeWhile (· == quote)).length
  let rest := s.dropWhile (· == quote)
  if count < 3 then some (true, List.replicate count quote, rest)
  else if count ≤ 5 then some (false, List.replicate (count - 3) quote, rest)
  else none

/-- What follows a backslash that ends a line, and the white space and line ends after it. -/
def skipLineBreak? (s : List Char) : Option (List Char) := (newline? (skipSpace s)).map skipBlanks

/-- Reads a string in three double quotes on either side after its opening quotes. -/
def multiBasic : Nat → List Char → Option (List Char × List Char)
  | 0, _ => none
  | _ + 1, [] => none
  | more + 1, '"' :: rest =>
      (quotes? '"' ('"' :: rest)).bind fun (goesOn, quotes, rest) =>
        if goesOn then (multiBasic more rest).map fun (text, left) => (quotes ++ text, left)
        else some (quotes, rest)
  | more + 1, '\\' :: rest =>
      match skipLineBreak? rest with
      | some rest => multiBasic more rest
      | none =>
          (escape? rest).bind fun (c, rest) =>
            (multiBasic more rest).map fun (text, left) => (c :: text, left)
  | more + 1, c :: rest =>
      match newline? (c :: rest) with
      | some rest => (multiBasic more rest).map fun (text, left) => ('\n' :: text, left)
      | none =>
          if isPrintable c then
            (multiBasic more rest).map fun (text, left) => (c :: text, left)
          else none

/-- Reads a string in three single quotes on either side after its opening quotes. -/
def multiLiteral : Nat → List Char → Option (List Char × List Char)
  | 0, _ => none
  | _ + 1, [] => none
  | more + 1, '\'' :: rest =>
      (quotes? '\'' ('\'' :: rest)).bind fun (goesOn, quotes, rest) =>
        if goesOn then (multiLiteral more rest).map fun (text, left) => (quotes ++ text, left)
        else some (quotes, rest)
  | more + 1, c :: rest =>
      match newline? (c :: rest) with
      | some rest => (multiLiteral more rest).map fun (text, left) => ('\n' :: text, left)
      | none =>
          if isPrintable c then
            (multiLiteral more rest).map fun (text, left) => (c :: text, left)
          else none

/-- Reads a string. -/
def string? : List Char → Option (String × List Char)
  | '"' :: '"' :: '"' :: rest =>
      (multiBasic (rest.length + 1) (skipFirstNewline rest)).map fun (text, left) =>
        (String.ofList text, left)
  | '"' :: rest =>
      (basic (rest.length + 1) rest).map fun (text, left) => (String.ofList text, left)
  | '\'' :: '\'' :: '\'' :: rest =>
      (multiLiteral (rest.length + 1) (skipFirstNewline rest)).map fun (text, left) =>
        (String.ofList text, left)
  | '\'' :: rest => (literal rest).map fun (text, left) => (String.ofList text, left)
  | _ => none

/-! ## Writing -/

/-- A character inside double quotes on one line. -/
def escaped (c : Char) : List Char :=
  if c = '"' ∨ c = '\\' then ['\\', c]
  else if isPrintable c then [c]
  else ['\\', 'u', '0', '0', hexDigit (c.toNat / 16), hexDigit (c.toNat % 16)]

/-- A text in double quotes. -/
def quote (s : String) : List Char := '"' :: s.toList.flatMap escaped ++ ['"']

theorem toNat_lt_of_not_printable {c : Char} (h : isPrintable c = false) : c.toNat < 128 := by
  simp only [isPrintable, Bool.or_eq_false_iff, Bool.and_eq_false_iff, decide_eq_false_iff_not,
    bne_eq_false_iff_eq] at h
  omega

/-- The four digits of a character that is not printed stand for the character. -/
theorem hexNumber?_of_lt {n : Nat} (h : n < 128) :
    (hexNumber? ['0', '0', hexDigit (n / 16), hexDigit (n % 16)]).bind scalar? =
      some (Char.ofNat n) := by
  have : ∀ m : Fin 128,
      (hexNumber? ['0', '0', hexDigit (m / 16), hexDigit (m % 16)]).bind scalar? =
        some (Char.ofNat m) := by decide
  exact this ⟨n, h⟩

/-- Reading gives a text back that was written in double quotes. -/
theorem basic_flatMap_escaped (s rest : List Char) {more : Nat} (h : s.length < more) :
    basic more (s.flatMap escaped ++ '"' :: rest) = some (s, rest) := by
  induction s generalizing more with
  | nil =>
      obtain ⟨more, rfl⟩ := Nat.exists_eq_add_one_of_ne_zero (Nat.ne_of_gt h)
      rfl
  | cons c s ih =>
      obtain ⟨more, rfl⟩ := Nat.exists_eq_add_one_of_ne_zero (Nat.ne_of_gt (Nat.zero_lt_of_lt h))
      have ih := @ih more (by simpa using h)
      by_cases hq : c = '"' ∨ c = '\\'
      · rcases hq with rfl | rfl <;>
          simp [escaped, basic, escape?, unescape?, ih]
      · by_cases hp : isPrintable c
        · simp only [not_or] at hq
          simp [escaped, hq, hp, basic, ih]
        · have hn := hexNumber?_of_lt (toNat_lt_of_not_printable (by simpa using hp))
          simp only [Char.ofNat_toNat] at hn
          simp [escaped, hq, hp, basic, escape?, hn, ih]

end MessageArchive.Toml
