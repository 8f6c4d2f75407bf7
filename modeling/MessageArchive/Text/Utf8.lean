set_option autoImplicit false

/-! # The bytes of texts

A text is stored as its bytes in UTF-8, and texts are ordered by these bytes, from left to right;
a text comes before every longer one that begins with it. The order is strict and total, and two
texts with the same bytes are the same text.
-/

namespace MessageArchive.Text

/-- The bytes of a text in UTF-8. -/
def utf8 (s : String) : List UInt8 := s.toByteArray.data.toList

theorem utf8_inj {s t : String} (h : utf8 s = utf8 t) : s = t := by
  apply String.toByteArray_inj.1
  have : s.toByteArray.data = t.toByteArray.data := Array.toList_inj.1 h
  cases hs : s.toByteArray
  cases ht : t.toByteArray
  simp_all

/-- The text with the given bytes in UTF-8, if there is one. -/
def ofUtf8? (bytes : List UInt8) : Option String := String.fromUTF8? ⟨bytes.toArray⟩

/-- A text is read back from its bytes. -/
theorem ofUtf8?_utf8 (s : String) : ofUtf8? (utf8 s) = some s := by
  have h : (⟨(utf8 s).toArray⟩ : ByteArray) = s.toByteArray := by simp [utf8]
  rw [ofUtf8?, h]
  simp [String.fromUTF8?, s.isValidUTF8, String.fromUTF8]

/-- Whether the first list of bytes comes before the second. -/
def bytesBefore : List UInt8 → List UInt8 → Bool
  | _, [] => false
  | [], _ :: _ => true
  | a :: s, b :: t => a < b || (a == b && bytesBefore s t)

/-- Whether the first text comes before the second. -/
def before (s t : String) : Bool := bytesBefore (utf8 s) (utf8 t)

theorem bytesBefore_irrefl (s : List UInt8) : bytesBefore s s = false := by
  induction s with
  | nil => rfl
  | cons a s ih => simp [bytesBefore, ih]

theorem bytesBefore_trans {s t u : List UInt8} (h : bytesBefore s t = true)
    (h' : bytesBefore t u = true) : bytesBefore s u = true := by
  induction s generalizing t u with
  | nil =>
      cases u with
      | nil => cases t <;> simp [bytesBefore] at h'
      | cons => rfl
  | cons a s ih =>
      cases t with
      | nil => simp [bytesBefore] at h
      | cons b t =>
          cases u with
          | nil => simp [bytesBefore] at h'
          | cons c u =>
              simp only [bytesBefore, Bool.or_eq_true, decide_eq_true_eq, Bool.and_eq_true,
                beq_iff_eq] at h h' ⊢
              rcases h with h | ⟨rfl, h⟩ <;> rcases h' with h' | ⟨rfl, h'⟩
              · exact Or.inl (UInt8.lt_trans h h')
              · exact Or.inl h
              · exact Or.inl h'
              · exact Or.inr ⟨rfl, ih h h'⟩

/-- Of two different lists of bytes one comes before the other. -/
theorem bytesBefore_total {s t : List UInt8} (h : s ≠ t) :
    bytesBefore s t = true ∨ bytesBefore t s = true := by
  induction s generalizing t with
  | nil =>
      cases t with
      | nil => exact absurd rfl h
      | cons => exact Or.inl rfl
  | cons a s ih =>
      cases t with
      | nil => exact Or.inr rfl
      | cons b t =>
          simp only [bytesBefore, Bool.or_eq_true, decide_eq_true_eq, Bool.and_eq_true, beq_iff_eq]
          by_cases hab : a = b
          · subst hab
            have : s ≠ t := fun hst => h (by rw [hst])
            rcases ih this with h1 | h1 <;> simp [h1]
          · rcases UInt8.lt_or_lt_of_ne hab with h1 | h1 <;> simp [h1]

theorem before_irrefl (s : String) : before s s = false := bytesBefore_irrefl _

theorem before_trans {s t u : String} (h : before s t = true) (h' : before t u = true) :
    before s u = true :=
  bytesBefore_trans h h'

theorem before_total {s t : String} (h : s ≠ t) : before s t = true ∨ before t s = true :=
  bytesBefore_total fun hb => h (utf8_inj hb)

end MessageArchive.Text
