set_option autoImplicit false

/-! # Decimal numbers

Numbers written in decimal, filled up with zeros to a least width. A minus sign counts as one
of the characters of the width and stands before the zeros, so `-5` at width 4 is `-005`.
-/

namespace MessageArchive.Text

/-- The decimal digits of a number, at least one. -/
def digits (n : Nat) : List Char := Nat.toDigits 10 n

/-- The number in decimal, with zeros in front until it has `width` digits. -/
def paddedNat (width n : Nat) : List Char := (digits n).leftpad width '0'

/-- The number in decimal, with zeros in front, after the sign, until it has `width` characters. -/
def padded (width : Nat) (n : Int) : List Char :=
  if n < 0 then '-' :: paddedNat (width - 1) n.natAbs else paddedNat width n.natAbs

theorem digits_ne_nil (n : Nat) : digits n ≠ [] := by
  have h : 0 < (digits n).length := Nat.length_toDigits_pos
  exact List.ne_nil_of_length_pos h

theorem isDigit_of_mem_digits {n : Nat} {c : Char} (h : c ∈ digits n) : c.isDigit = true :=
  Nat.isDigit_of_mem_toDigits (by decide) (by decide) h

/-- The digits read back as the number. -/
theorem ofDigitChars_digits (n : Nat) : Nat.ofDigitChars 10 (digits n) 0 = n :=
  Nat.ofDigitChars_toDigits (by decide) (by decide)

theorem isDigit_of_mem_paddedNat {width n : Nat} {c : Char} (h : c ∈ paddedNat width n) :
    c.isDigit = true := by
  rcases List.mem_append.1 h with h | h
  · obtain rfl := List.eq_of_mem_replicate h
    rfl
  · exact isDigit_of_mem_digits h

/-- A number is written with `width` digits, or with more when it needs more. -/
theorem length_paddedNat (width n : Nat) :
    (paddedNat width n).length = max width (digits n).length := by
  simp only [paddedNat, List.leftpad, List.length_append, List.length_replicate]
  omega

end MessageArchive.Text
