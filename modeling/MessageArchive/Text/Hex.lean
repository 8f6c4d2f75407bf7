set_option autoImplicit false

/-! # Hexadecimal digits

Digests are written with two lowercase digits for each byte, character escapes with the fewest
digits, or with four.
-/

namespace MessageArchive.Text

/-- The lowercase hexadecimal digit of a value below sixteen. -/
def hexDigit (n : Nat) : Char :=
  if n < 10 then Char.ofNat (48 + n) else Char.ofNat (87 + n)

/-- The value of a hexadecimal digit in either case. -/
def hexValue? (c : Char) : Option Nat :=
  let n := c.toNat
  if 48 ≤ n ∧ n ≤ 57 then some (n - 48)
  else if 97 ≤ n ∧ n ≤ 102 then some (n - 87)
  else if 65 ≤ n ∧ n ≤ 70 then some (n - 55)
  else none

/-- Two lowercase digits for each byte. -/
def hexOfBytes (bytes : List UInt8) : List Char :=
  bytes.flatMap fun b => [hexDigit (b.toNat / 16), hexDigit (b.toNat % 16)]

/-- The number in lowercase hexadecimal, without leading zeros. -/
def hexOfNat (n : Nat) : List Char := Nat.toDigits 16 n

end MessageArchive.Text
