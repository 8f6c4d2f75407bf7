import MessageArchive.Text.Decimal
import MessageArchive.Text.Hex
import MessageArchive.Toml.Value

set_option autoImplicit false

/-! # TOML numbers and dates

Integers have to fit into 64 bits with a sign, and a float must not be too large. Digits may be
kept apart by single underscores. Dates and times have to be possible ones; they are kept as text
in one spelling.
-/

namespace MessageArchive.Toml

open MessageArchive.Text

/-! ## Digits -/

/-- Reads digits after a first one, each with at most one underscore before it. -/
def moreDigits (isDigit : Char → Bool) : List Char → Option (List Char × List Char)
  | [] => some ([], [])
  | '_' :: c :: rest =>
      if isDigit c then (moreDigits isDigit rest).map fun (ds, left) => (c :: ds, left) else none
  | c :: rest =>
      if isDigit c then (moreDigits isDigit rest).map fun (ds, left) => (c :: ds, left)
      else if c = '_' then none
      else some ([], c :: rest)

/-- Reads one digit or more. -/
def digits? (isDigit : Char → Bool) : List Char → Option (List Char × List Char)
  | [] => none
  | c :: rest =>
      if isDigit c then (moreDigits isDigit rest).map fun (ds, left) => (c :: ds, left) else none

/-- Reads the digits of a whole number in decimal, which has no leading zeros. -/
def wholeDigits? : List Char → Option (List Char × List Char)
  | '0' :: rest => some (['0'], rest)
  | s => digits? Char.isDigit s

/-- The number that digits stand for. -/
def numberOf (base : Nat) (ds : List Char) : Nat :=
  ds.foldl (fun n c => base * n + (hexValue? c).getD 0) 0

/-- A number as an integer, if it fits into 64 bits. -/
def integer? (n : Int) : Option Value :=
  if -9223372036854775808 ≤ n ∧ n ≤ 9223372036854775807 then some (.integer n) else none

/-- Reads an integer in another base than ten, after the letter that gives the base. -/
def basedInteger? (base : Nat) (s : List Char) : Option (Value × List Char) :=
  let isDigit := fun c => (hexValue? c).any (· < base)
  (digits? isDigit s).bind fun (ds, left) =>
    (integer? (numberOf base ds)).map fun v => (v, left)

/-! ## Floats -/

/-- A power of ten. -/
def powerOfTen (exponent : Nat) : Nat := Nat.pow 10 exponent

/-- Whether the number `digits * 10 ^ exponent` is rounded to infinity as a float of 64 bits. -/
def overflows (digits : Nat) (exponent : Int) : Bool :=
  let bound := (1 <<< 1024) - (1 <<< 970)
  if digits = 0 then false
  else if 400 < exponent then true
  else if 0 ≤ exponent then bound ≤ digits * powerOfTen exponent.toNat
  else if (Nat.toDigits 10 digits).length ≤ exponent.natAbs then false
  else bound * powerOfTen exponent.natAbs ≤ digits

/-- Reads the fraction of a float, if there is one. -/
def fraction? : List Char → Option (List Char × List Char)
  | '.' :: rest => digits? Char.isDigit rest
  | s => some ([], s)

/-- Reads the exponent of a float after its letter. -/
def exponentAfterLetter? : List Char → Option (Int × List Char)
  | '+' :: rest => (digits? Char.isDigit rest).map fun (ds, left) => (numberOf 10 ds, left)
  | '-' :: rest => (digits? Char.isDigit rest).map fun (ds, left) => (-(numberOf 10 ds : Int), left)
  | s => (digits? Char.isDigit s).map fun (ds, left) => (numberOf 10 ds, left)

/-- Reads the exponent of a float, if there is one. -/
def exponent? : List Char → Option (Int × List Char)
  | 'e' :: rest => exponentAfterLetter? rest
  | 'E' :: rest => exponentAfterLetter? rest
  | s => some (0, s)

/-- Whether what follows the whole part makes a number a float. -/
def isFloatMark : List Char → Bool
  | c :: _ => c == '.' || c == 'e' || c == 'E'
  | [] => false

/-- Reads a number in decimal after its sign. -/
def decimal? (negative : Bool) (s : List Char) : Option (Value × List Char) :=
  (wholeDigits? s).bind fun (whole, rest) =>
    if isFloatMark rest then
      (fraction? rest).bind fun (fraction, rest) =>
        (exponent? rest).bind fun (exponent, left) =>
          if !negative && overflows (numberOf 10 (whole ++ fraction)) (exponent - fraction.length)
          then none
          else some (.float, left)
    else
      let n : Int := numberOf 10 whole
      (integer? (if negative then -n else n)).map fun v => (v, rest)

/-- Reads a number after its sign; the words for infinity and for no number are numbers as well. -/
def signed? (negative : Bool) : List Char → Option (Value × List Char)
  | 'i' :: 'n' :: 'f' :: rest => some (.float, rest)
  | 'n' :: 'a' :: 'n' :: rest => some (.float, rest)
  | s => decimal? negative s

/-- Reads a number. -/
def number? : List Char → Option (Value × List Char)
  | '0' :: 'x' :: rest => basedInteger? 16 rest
  | '0' :: 'o' :: rest => basedInteger? 8 rest
  | '0' :: 'b' :: rest => basedInteger? 2 rest
  | '+' :: rest => signed? false rest
  | '-' :: rest => signed? true rest
  | s => signed? false s

/-! ## Dates and times -/

/-- Reads a number of exactly `count` digits that lies between two bounds. -/
def fixed? (count low high : Nat) (s : List Char) : Option (Nat × List Char) :=
  let ds := s.take count
  let n := numberOf 10 ds
  if ds.length = count ∧ ds.all Char.isDigit ∧ low ≤ n ∧ n ≤ high then some (n, s.drop count)
  else none

/-- Goes past a character. -/
def expect? (c : Char) : List Char → Option (List Char)
  | [] => none
  | x :: rest => if x = c then some rest else none

/-- The number of days in a month. -/
def daysInMonth (year month : Nat) : Nat :=
  if month = 2 then
    if year % 4 = 0 ∧ (year % 100 ≠ 0 ∨ year % 400 = 0) then 29 else 28
  else if month = 4 ∨ month = 6 ∨ month = 9 ∨ month = 11 then 30
  else 31

/-- Reads a day. -/
def day? (s : List Char) : Option (List Char × List Char) := do
  let (year, s) ← fixed? 4 0 9999 s
  let (month, s) ← fixed? 2 1 12 (← expect? '-' s)
  let (day, s) ← fixed? 2 1 (daysInMonth year month) (← expect? '-' s)
  return (paddedNat 4 year ++ '-' :: paddedNat 2 month ++ '-' :: paddedNat 2 day, s)

/-- A fraction of a second, to nine digits at most and without zeros at its end. -/
def fractionText (ds : List Char) : List Char :=
  let kept := ((ds.take 9).reverse.dropWhile (· == '0')).reverse
  if kept.isEmpty then [] else '.' :: kept

/-- Reads the fraction of a second, if there is one. -/
def secondFraction? : List Char → Option (List Char × List Char)
  | '.' :: rest =>
      let ds := rest.takeWhile Char.isDigit
      if ds.isEmpty then none else some (fractionText ds, rest.dropWhile Char.isDigit)
  | s => some ([], s)

/-- Reads a time of the day. -/
def time? (s : List Char) : Option (List Char × List Char) := do
  let (hour, s) ← fixed? 2 0 23 s
  let (minute, s) ← fixed? 2 0 59 (← expect? ':' s)
  let (second, s) ← fixed? 2 0 60 (← expect? ':' s)
  let (fraction, s) ← secondFraction? s
  return (paddedNat 2 hour ++ ':' :: paddedNat 2 minute ++ ':' :: paddedNat 2 second ++ fraction, s)

/-- The text of an offset from UTC. -/
def offsetText (sign : Char) (hour minute : Nat) : List Char :=
  (if hour = 0 ∧ minute = 0 then '+' else sign) :: paddedNat 2 hour ++ ':' :: paddedNat 2 minute

/-- Reads an offset from UTC, if there is one. -/
def offset? : List Char → Option (List Char × List Char)
  | 'Z' :: rest => some (['Z'], rest)
  | 'z' :: rest => some (['Z'], rest)
  | sign :: rest =>
      if sign = '+' ∨ sign = '-' then do
        let (hour, s) ← fixed? 2 0 23 rest
        let (minute, s) ← fixed? 2 0 59 (← expect? ':' s)
        return (offsetText sign hour minute, s)
      else some ([], sign :: rest)
  | [] => some ([], [])

/-- Whether a text begins with two digits and a colon. -/
def startsTime : List Char → Bool
  | a :: b :: ':' :: _ => a.isDigit && b.isDigit
  | _ => false

/-- Whether a text begins with four digits and a hyphen. -/
def startsDay : List Char → Bool
  | a :: b :: c :: d :: '-' :: _ => a.isDigit && b.isDigit && c.isDigit && d.isDigit
  | _ => false

/-- What follows the mark between a day and a time, if a time follows it. -/
def timeMark? : List Char → Option (List Char)
  | c :: rest =>
      if (c = 'T' ∨ c = 't' ∨ c = ' ') ∧ startsTime rest then some rest else none
  | [] => none

/-- Reads a day, with a time of the day and an offset where these follow. -/
def dayAndTime? (s : List Char) : Option (Value × List Char) := do
  let (day, s) ← day? s
  match timeMark? s with
  | none => return (.date (String.ofList day), s)
  | some s =>
      let (time, s) ← time? s
      let (offset, s) ← offset? s
      return (.date (String.ofList (day ++ 'T' :: time ++ offset)), s)

/-- Reads a number, a date or a time. -/
def numberOrDate? (s : List Char) : Option (Value × List Char) :=
  if startsDay s then dayAndTime? s
  else if startsTime s then (time? s).map fun (time, s) => (.date (String.ofList time), s)
  else number? s

/-- Reads a word. -/
def word? : List Char → Option (Value × List Char)
  | 't' :: 'r' :: 'u' :: 'e' :: rest => some (.boolean true, rest)
  | 'f' :: 'a' :: 'l' :: 's' :: 'e' :: rest => some (.boolean false, rest)
  | _ => none

end MessageArchive.Toml
