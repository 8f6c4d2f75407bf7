import MessageArchive.Proofs.Text.Reading
import MessageArchive.Text.Decimal
import MessageArchive.Text.Utf8

set_option autoImplicit false

/-! # Numbers of one width

Numbers that are filled up with zeros to one width are told apart by their texts, since the number
is read back from its digits whatever zeros stand before them (`paddedNat_inj`, `padded_inj`).

Of two numbers that fit into the width, the smaller one has the text that comes first: the texts
agree up to a place where the smaller number has the smaller digit (`DigitsBefore`). What stands
behind that place does not matter, so this goes on to hold when more is written behind, and it
settles the order of the bytes (`DigitsBefore.before`).
-/

namespace MessageArchive.Text

/-! ## Reading a number back -/

theorem ofDigitChars_zeros (count : Nat) :
    Nat.ofDigitChars 10 (List.replicate count '0') 0 = 0 := by
  induction count with
  | zero => rfl
  | succ count ih =>
      rw [List.replicate_succ, Nat.ofDigitChars_cons]
      exact ih

theorem ofDigitChars_paddedNat (width n : Nat) :
    Nat.ofDigitChars 10 (paddedNat width n) 0 = n := by
  rw [paddedNat, List.leftpad, Nat.ofDigitChars_append, ofDigitChars_zeros]
  exact ofDigitChars_digits n

theorem paddedNat_inj {width n n' : Nat} : paddedNat width n = paddedNat width n' ↔ n = n' := by
  constructor
  · intro h
    calc n = Nat.ofDigitChars 10 (paddedNat width n) 0 := (ofDigitChars_paddedNat width n).symm
      _ = Nat.ofDigitChars 10 (paddedNat width n') 0 := by rw [h]
      _ = n' := ofDigitChars_paddedNat width n'
  · intro h
    rw [h]

theorem not_mem_paddedNat {c : Char} (h : c.isDigit = false) (width n : Nat) :
    c ∉ paddedNat width n := by
  intro hc
  rw [isDigit_of_mem_paddedNat hc] at h
  cases h

theorem padded_of_nonneg {n : Int} (h : 0 ≤ n) (width : Nat) :
    padded width n = paddedNat width n.natAbs := by
  rw [padded, if_neg (by omega)]

theorem padded_of_neg {n : Int} (h : n < 0) (width : Nat) :
    padded width n = '-' :: paddedNat (width - 1) n.natAbs := by
  rw [padded, if_pos h]

/-- A number with a sign begins with it, and a number without one does not. -/
theorem minus_mem_padded_iff (width : Nat) {n : Int} : '-' ∈ padded width n ↔ n < 0 := by
  by_cases h : n < 0
  · simp [padded_of_neg h, h]
  · rw [padded_of_nonneg (by omega)]
    exact iff_of_false (not_mem_paddedNat rfl width n.natAbs) h

theorem padded_inj {width : Nat} {n n' : Int} : padded width n = padded width n' ↔ n = n' := by
  constructor
  · intro h
    have hsign : n < 0 ↔ n' < 0 := by
      rw [← minus_mem_padded_iff width, h, minus_mem_padded_iff]
    by_cases hn : n < 0
    · have hn' : n' < 0 := hsign.1 hn
      rw [padded_of_neg hn, padded_of_neg hn', List.cons.injEq, paddedNat_inj] at h
      omega
    · have hn' : ¬ n' < 0 := fun hlt => hn (hsign.2 hlt)
      rw [padded_of_nonneg (by omega), padded_of_nonneg (by omega), paddedNat_inj] at h
      omega
  · intro h
    rw [h]

theorem not_mem_padded {c : Char} (h : c.isDigit = false) (hminus : c ≠ '-') (width : Nat)
    (n : Int) : c ∉ padded width n := by
  by_cases hn : n < 0
  · rw [padded_of_neg hn, List.mem_cons, not_or]
    exact ⟨hminus, not_mem_paddedNat h _ _⟩
  · rw [padded_of_nonneg (by omega)]
    exact not_mem_paddedNat h _ _

/-- The number that digits write. -/
def natural? (s : List Char) : Option Nat :=
  if !s.isEmpty && s.all Char.isDigit then some (Nat.ofDigitChars 10 s 0) else none

/-- The number that digits write, or the negative of it with a minus sign before them. -/
def number? : List Char → Option Int
  | '-' :: s => (natural? s).map fun (n : Nat) => -(n : Int)
  | s => (natural? s).map fun (n : Nat) => (n : Int)

theorem natural?_paddedNat (width n : Nat) : natural? (paddedNat width n) = some n := by
  have hne : (paddedNat width n).isEmpty = false :=
    List.isEmpty_eq_false_iff.2 (List.append_ne_nil_of_right_ne_nil _ (digits_ne_nil n))
  have hdigits : (paddedNat width n).all Char.isDigit = true :=
    List.all_eq_true.2 fun c hc => isDigit_of_mem_paddedNat hc
  rw [natural?, hne, hdigits, ofDigitChars_paddedNat]
  rfl

theorem number?_paddedNat (width n : Nat) : number? (paddedNat width n) = some (n : Int) := by
  have hminus : '-' ∉ paddedNat width n := not_mem_paddedNat rfl width n
  unfold number?
  split
  next s hs =>
    rw [hs] at hminus
    exact absurd List.mem_cons_self hminus
  next => rw [natural?_paddedNat, Option.map_some]

/-- A number is read back from its text, whatever width it was filled up to. -/
theorem number?_padded (width : Nat) (n : Int) : number? (padded width n) = some n := by
  by_cases h : n < 0
  · have habs : -(n.natAbs : Int) = n := by omega
    rw [padded_of_neg h, number?, natural?_paddedNat, Option.map_some, habs]
  · have habs : (n.natAbs : Int) = n := by omega
    rw [padded_of_nonneg (by omega), number?_paddedNat, habs]

/-- A number is told from what follows it by a character that is no digit. -/
theorem paddedNat_append_inj {width n n' : Nat} {c : Char} {rest rest' : List Char}
    (h : c.isDigit = false) :
    paddedNat width n ++ c :: rest = paddedNat width n' ++ c :: rest' ↔ n = n' ∧ rest = rest' := by
  constructor
  · intro heq
    obtain ⟨hnumber, hrest⟩ := Reading.split_unique heq (not_mem_paddedNat h width n)
      (not_mem_paddedNat h width n')
    exact ⟨paddedNat_inj.1 hnumber, hrest⟩
  · rintro ⟨rfl, rfl⟩
    rfl

theorem padded_append_inj {width : Nat} {n n' : Int} {c : Char} {rest rest' : List Char}
    (h : c.isDigit = false) (hminus : c ≠ '-') :
    padded width n ++ c :: rest = padded width n' ++ c :: rest' ↔ n = n' ∧ rest = rest' := by
  constructor
  · intro heq
    obtain ⟨hnumber, hrest⟩ := Reading.split_unique heq (not_mem_padded h hminus width n)
      (not_mem_padded h hminus width n')
    exact ⟨padded_inj.1 hnumber, hrest⟩
  · rintro ⟨rfl, rfl⟩
    rfl

/-! ## Numbers that fit into the width -/

/-- With one more character of width, the last digit stands behind the others. -/
theorem paddedNat_succ {width : Nat} (hwidth : 0 < width) (n : Nat) :
    paddedNat (width + 1) n = paddedNat width (n / 10) ++ [(n % 10).digitChar] := by
  by_cases h : n < 10
  · have hn : digits n = [n.digitChar] := Nat.toDigits_of_lt_base h
    have hdiv : digits (n / 10) = ['0'] := by
      rw [Nat.div_eq_of_lt h]
      rfl
    have hzeros : List.replicate width '0' = List.replicate (width - 1) '0' ++ ['0'] := by
      rw [← List.replicate_succ', Nat.sub_add_cancel hwidth]
    simp only [paddedNat, List.leftpad, hn, hdiv, Nat.mod_eq_of_lt h, List.length_singleton,
      Nat.add_sub_cancel, hzeros]
  · have hn : digits n = digits (n / 10) ++ [(n % 10).digitChar] :=
      Nat.toDigits_of_base_le (by decide) (by omega)
    simp only [paddedNat, List.leftpad, hn, List.length_append, List.length_singleton,
      Nat.add_sub_add_right, List.append_assoc]

/-- A number that fits into the width takes all of it and no more. -/
theorem length_paddedNat_of_lt {width n : Nat} (hwidth : 0 < width) (h : n < Nat.pow 10 width) :
    (paddedNat width n).length = width := by
  have hdigits : (digits n).length ≤ width :=
    (Nat.length_toDigits_le_iff (by decide) hwidth).2 h
  rw [length_paddedNat]
  omega

/-! ## The order of the texts -/

/-- The texts agree up to a place where both have a digit, and there the first has the smaller
one. -/
inductive DigitsBefore : List Char → List Char → Prop
  | intro (front : List Char) {c d : Char} (back back' : List Char) (hc : c.isDigit = true)
      (hd : d.isDigit = true) (smaller : c < d) :
      DigitsBefore (front ++ c :: back) (front ++ d :: back')

namespace DigitsBefore

variable {s t : List Char}

theorem append_left (front : List Char) (h : DigitsBefore s t) :
    DigitsBefore (front ++ s) (front ++ t) := by
  obtain ⟨middle, back, back', hc, hd, hcd⟩ := h
  rw [← List.append_assoc, ← List.append_assoc]
  exact .intro _ _ _ hc hd hcd

theorem cons (c : Char) (h : DigitsBefore s t) : DigitsBefore (c :: s) (c :: t) :=
  h.append_left [c]

theorem append_right (h : DigitsBefore s t) (u v : List Char) :
    DigitsBefore (s ++ u) (t ++ v) := by
  obtain ⟨front, back, back', hc, hd, hcd⟩ := h
  rw [List.append_assoc, List.append_assoc, List.cons_append, List.cons_append]
  exact .intro _ _ _ hc hd hcd

end DigitsBefore

theorem toNat_digit {c : Char} (h : c.isDigit = true) : 48 ≤ c.toNat ∧ c.toNat ≤ 57 := by
  simp only [Char.isDigit, Bool.and_eq_true, decide_eq_true_eq] at h
  exact h

theorem digitChar_lt {n n' : Nat} (h : n < n') (h' : n' < 10) : n.digitChar < n'.digitChar := by
  have hn : n.digitChar.toNat = 48 + n := Nat.toNat_digitChar_of_lt_ten (by omega)
  have hn' : n'.digitChar.toNat = 48 + n' := Nat.toNat_digitChar_of_lt_ten h'
  show n.digitChar.toNat < n'.digitChar.toNat
  omega

/-- Of two numbers that fit into the width the smaller one comes first. -/
theorem digitsBefore_paddedNat {width n n' : Nat} (hwidth : 0 < width) (h : n < n')
    (h' : n' < Nat.pow 10 width) : DigitsBefore (paddedNat width n) (paddedNat width n') := by
  have hdigit : ∀ m : Nat, m < 10 → m.digitChar.isDigit = true := by decide
  induction width generalizing n n' with
  | zero => omega
  | succ width ih =>
      have hten : n' < Nat.pow 10 width * 10 := h'
      cases width with
      | zero =>
          have hten' : n' < 10 := hten
          have hone : ∀ m : Nat, m < 10 → paddedNat 1 m = [m.digitChar] := fun m hm => by
            rw [paddedNat, digits, Nat.toDigits_of_lt_base hm]
            rfl
          rw [hone n (by omega), hone n' hten']
          exact .intro [] [] [] (hdigit n (by omega)) (hdigit n' hten') (digitChar_lt h hten')
      | succ width =>
          rw [paddedNat_succ (Nat.succ_pos width), paddedNat_succ (Nat.succ_pos width)]
          by_cases hdiv : n / 10 < n' / 10
          · exact (ih (Nat.succ_pos width) hdiv (by omega)).append_right _ _
          · -- All digits but the last agree, so the last one decides.
            have hsame : n / 10 = n' / 10 := by omega
            have hlast : n % 10 < n' % 10 := by omega
            rw [hsame]
            exact .intro _ [] [] (hdigit _ (by omega)) (hdigit _ (by omega))
              (digitChar_lt hlast (by omega))

/-- A number that fits into the width, and more behind it: the smaller number comes first, and
behind the same number what comes first there. -/
theorem DigitsBefore.number {width n n' : Nat} {rest rest' : List Char} (hwidth : 0 < width)
    (hfits : n' < Nat.pow 10 width) (h : n < n' ∨ n = n' ∧ DigitsBefore rest rest') :
    DigitsBefore (paddedNat width n ++ rest) (paddedNat width n' ++ rest') := by
  rcases h with hlt | ⟨rfl, hrest⟩
  · exact (digitsBefore_paddedNat hwidth hlt hfits).append_right rest rest'
  · exact hrest.append_left (paddedNat width n)

/-! ### The order of the bytes -/

theorem utf8_ofList_append (s t : List Char) :
    utf8 (String.ofList (s ++ t)) = utf8 (String.ofList s) ++ utf8 (String.ofList t) := by
  simp only [utf8, String.ofList_append, String.toByteArray_append, ByteArray.data_append,
    Array.toList_append]

/-- A digit is one byte. -/
theorem utf8_digit {c : Char} (h : c.isDigit = true) :
    utf8 (String.ofList [c]) = [c.toUInt8] := by
  have hsize : c.utf8Size = 1 := by
    rw [Char.utf8Size_eq_one_iff]
    show c.toNat ≤ 127
    have := toNat_digit h
    omega
  rw [utf8, String.toByteArray_ofList, List.utf8Encode_singleton,
    String.utf8EncodeChar_eq_singleton hsize]
  rfl

theorem bytesBefore_append_left (front s t : List UInt8) :
    bytesBefore (front ++ s) (front ++ t) = bytesBefore s t := by
  induction front with
  | nil => rfl
  | cons a front ih =>
      rw [List.cons_append, List.cons_append, bytesBefore, ih]
      simp

theorem toUInt8_lt_of_digits {c d : Char} (hc : c.isDigit = true) (hd : d.isDigit = true)
    (h : c < d) : c.toUInt8 < d.toUInt8 := by
  have hbyte : ∀ x : Char, x.isDigit = true → x.toUInt8.toNat = x.toNat := by
    intro x hx
    have := toNat_digit hx
    show x.val.toUInt8.toNat = x.toNat
    rw [UInt32.toNat_toUInt8]
    exact Nat.mod_eq_of_lt (show x.toNat < 256 by omega)
  rw [UInt8.lt_iff_toNat_lt, hbyte c hc, hbyte d hd]
  exact h

/-- A text that has the smaller digit comes first by its bytes. -/
theorem DigitsBefore.before {s t : List Char} (h : DigitsBefore s t) :
    before (String.ofList s) (String.ofList t) = true := by
  obtain ⟨front, back, back', hc, hd, hcd⟩ := h
  have hsplit : ∀ (x : Char) (more : List Char), x.isDigit = true →
      utf8 (String.ofList (front ++ x :: more)) =
        utf8 (String.ofList front) ++ x.toUInt8 :: utf8 (String.ofList more) := by
    intro x more hx
    rw [utf8_ofList_append, ← List.singleton_append, utf8_ofList_append [x] more, utf8_digit hx]
    rfl
  rw [Text.before, hsplit _ back hc, hsplit _ back' hd, bytesBefore_append_left, bytesBefore]
  simp [toUInt8_lt_of_digits hc hd hcd]

end MessageArchive.Text
