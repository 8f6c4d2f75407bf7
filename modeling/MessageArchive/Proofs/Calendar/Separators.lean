import MessageArchive.Proofs.Calendar.PatternLanguage
import MessageArchive.Proofs.Text.Digits

set_option autoImplicit false

/-! # Characters that fields do not write

The fields of a moment are written in ASCII letters, digits and the three signs `+`, `-` and `:`, in
every zone and for runs of every length (`Field.writtenPlainly`). So any other character of a written
moment is copied from the pattern, and but for quotes each one of the pattern is copied
(`formatDate_copies`).
-/

namespace MessageArchive.Calendar

open MessageArchive.Text

/-! ## Fields -/

/-- The characters that fields are written in. -/
def isFieldChar (c : Char) : Bool := c.isAlphanum || c == '+' || c == '-' || c == ':'

/-- A text in these characters. -/
def WrittenPlainly (s : List Char) : Prop := ∀ c ∈ s, isFieldChar c = true

theorem isFieldChar_of_isAlpha {c : Char} (h : c.isAlpha = true) : isFieldChar c = true := by
  simp [isFieldChar, Char.isAlphanum, h]

theorem isFieldChar_of_isDigit {c : Char} (h : c.isDigit = true) : isFieldChar c = true := by
  simp [isFieldChar, Char.isAlphanum, h]

namespace WrittenPlainly

variable {s t : List Char}

theorem of_all (h : s.all isFieldChar = true) : WrittenPlainly s := List.all_eq_true.1 h

theorem nil : WrittenPlainly [] := fun _ h => absurd h List.not_mem_nil

theorem cons {c : Char} (hc : isFieldChar c = true) (h : WrittenPlainly s) :
    WrittenPlainly (c :: s) :=
  List.forall_mem_cons.2 ⟨hc, h⟩

theorem append (h : WrittenPlainly s) (h' : WrittenPlainly t) : WrittenPlainly (s ++ t) :=
  List.forall_mem_append.2 ⟨h, h'⟩

theorem number (width n : Nat) : WrittenPlainly (paddedNat width n) :=
  fun _ hc => isFieldChar_of_isDigit (isDigit_of_mem_paddedNat hc)

theorem signed (width : Nat) (n : Int) : WrittenPlainly (padded width n) := by
  rw [padded]
  split
  · exact cons rfl (number _ _)
  · exact number _ _

theorem year (count : Nat) (y : Int) : WrittenPlainly (yearText count y) := by
  rw [yearText]
  split
  · exact signed _ _
  · exact signed _ _

/-- Names that are written in letters, whole or cut short. -/
theorem name {names : List String} (h : ∀ n ∈ names, WrittenPlainly n.toList) (index count : Nat) :
    WrittenPlainly (nameText names index count) := by
  have hname : WrittenPlainly (names.getD index "").toList := by
    rw [List.getD_eq_getElem?_getD]
    cases hindex : names[index]? with
    | none => exact nil
    | some n => exact h n (List.mem_of_getElem? hindex)
  rw [nameText]
  split
  · exact hname
  · exact fun c hc => hname c (List.mem_of_mem_take hc)

theorem months : ∀ n ∈ monthNames, WrittenPlainly n.toList := by
  have hall : (monthNames.all fun n => n.toList.all isFieldChar) = true := by decide
  intro n hn
  exact of_all (List.all_eq_true.1 hall n hn)

theorem weekdays : ∀ n ∈ weekdayNames, WrittenPlainly n.toList := by
  have hall : (weekdayNames.all fun n => n.toList.all isFieldChar) = true := by decide
  intro n hn
  exact of_all (List.all_eq_true.1 hall n hn)

theorem hours (offset : Int) : WrittenPlainly (offsetHours offset) := by
  rw [offsetHours]
  split
  · exact cons rfl (number _ _)
  · exact cons rfl (number _ _)

theorem hoursAndMinutes (offset : Int) :
    WrittenPlainly (offsetHours offset ++ offsetMinutes offset) :=
  (hours offset).append (number _ _)

theorem hoursColonMinutes (offset : Int) :
    WrittenPlainly (offsetHours offset ++ ':' :: offsetMinutes offset) :=
  (hours offset).append (cons rfl (number _ _))

theorem zone (z : Zone) : WrittenPlainly (zoneText z) := by
  cases z with
  | utc => exact of_all (by decide)
  | fixed offset =>
      rw [zoneText]
      split
      · rw [List.append_nil]
        exact hoursColonMinutes offset
      · exact (hoursColonMinutes offset).append (cons rfl (number _ _))

end WrittenPlainly

/-- Whatever the moment, its zone and the length of the run, a field is written in letters, digits and
signs. -/
theorem Field.writtenPlainly (m : Moment) (count : Nat) (f : Field) :
    WrittenPlainly (f.text m count) := by
  have hpair : ∀ c d : Char, isFieldChar c = true → isFieldChar d = true →
      WrittenPlainly [c, d] := fun c d hc hd => .cons hc (.cons hd .nil)
  cases f with
  | era =>
      rw [Field.text]
      split
      · exact hpair 'A' 'D' rfl rfl
      · exact hpair 'B' 'C' rfl rfl
  | year => exact .year count _
  | weekYear => exact .year count _
  | month =>
      rw [Field.text]
      split
      · exact .number count _
      · exact .name .months _ count
  | weekdayName => exact .name .weekdays _ count
  | halfOfDay =>
      rw [Field.text]
      split
      · exact hpair 'A' 'M' rfl rfl
      · exact hpair 'P' 'M' rfl rfl
  | zoneName => exact .zone m.zone
  | zoneOffset => exact .hoursAndMinutes m.zone.offset
  | zoneOffsetOrZ =>
      rw [Field.text]
      split
      · exact .cons rfl .nil
      · split
        · exact .hours _
        · split
          · exact .hoursAndMinutes _
          · exact .hoursColonMinutes _
  | week => exact .number count _
  | ordinal => exact .number count _
  | dayOfMonth => exact .number count _
  | weekdayInMonth => exact .number count _
  | weekdayNumber => exact .number count _
  | hour => exact .number count _
  | hourFromOne => exact .number count _
  | hourOfHalf => exact .number count _
  | hourOfHalfFromOne => exact .number count _
  | minute => exact .number count _
  | second => exact .number count _
  | millisecond => exact .number count _

/-! ## Patterns -/

namespace Pattern

variable {c : Char} {pattern : List Char} {rs : List Run}

/-- A character that no field writes is written for the runs that copy it, and for no others. -/
theorem Run.mem_text_iff (hc : isFieldChar c = false) (m : Moment) {run : Run} :
    c ∈ run.text m ↔ run = .copied c := by
  cases run with
  | copied d =>
      rw [Run.text, List.mem_singleton, Run.copied.injEq]
      exact eq_comm
  | letters d count =>
      refine iff_of_false (fun hmem => ?_) (fun h => by cases h)
      rw [Run.text] at hmem
      cases hd : Field.ofLetter? d with
      | none =>
          rw [hd] at hmem
          exact absurd hmem List.not_mem_nil
      | some meaning =>
          rw [hd] at hmem
          rw [meaning.writtenPlainly m count c hmem] at hc
          cases hc

/-- A run writes the character once if it copies it. -/
theorem Run.count_text (hc : isFieldChar c = false) (m : Moment) (run : Run) :
    (run.text m).count c = if run = .copied c then 1 else 0 := by
  split
  next h =>
    rw [h, Run.text]
    exact List.count_singleton_self
  next h => exact List.count_eq_zero.2 fun hmem => h ((Run.mem_text_iff hc m).1 hmem)

theorem count_texts (hc : isFieldChar c = false) (m : Moment) (rs : List Run) :
    (rs.flatMap (Run.text m)).count c = rs.count (.copied c) := by
  induction rs with
  | nil => rfl
  | cons run rest ih =>
      rw [List.flatMap_cons, List.count_append, ih, Run.count_text hc, List.count_cons]
      simp only [beq_iff_eq]
      omega

/-- A character of the pattern is copied, unless it is a quote or a letter. -/
theorem Reads.count_copied {state ended : Bool} (h : Reads state pattern rs ended)
    (hquote : c ≠ '\'') (hletter : c.isAlpha = false) :
    rs.count (.copied c) = pattern.count c := by
  have hcons : ∀ (d : Char) (rest : List Char) (more : List Run),
      more.count (.copied c) = rest.count c →
        (Run.copied d :: more).count (.copied c) = (d :: rest).count c := by
    intro d rest more hrest
    rw [List.count_cons, List.count_cons, hrest]
    simp
  induction h with
  | done => rfl
  | pair following ih =>
      rw [hcons _ _ _ ih]
      simp only [List.count_cons_of_ne (Ne.symm hquote)]
  | switch alone following ih => rw [ih, List.count_cons_of_ne (Ne.symm hquote)]
  | inside noQuote following ih => exact hcons _ _ _ ih
  | outside noQuote noLetter following ih => exact hcons _ _ _ ih
  | @letters _ d count rest more letter maximal following ih =>
      have hne : d ≠ c := by
        rintro rfl
        rw [letter] at hletter
        cases hletter
      have hrun : Run.letters d (count + 1) ≠ .copied c := by simp
      rw [List.count_cons_of_ne hrun, ih, List.count_append, List.count_replicate, if_neg (by simpa),
        Nat.zero_add]

/-- The character stands as often in what is written as in the pattern, and it is the copied characters
of the pattern's reading that write it. -/
structure Copies (c : Char) (pattern : List Char) (m : Moment) (text : List Char) : Prop where
  count : text.count c = pattern.count c
  copied : ∃ rs, Reads false pattern rs false ∧ text = rs.flatMap (Run.text m) ∧
    ∀ run ∈ rs, c ∈ run.text m → run = .copied c

/-- A character that is no quote and that no field writes is copied. -/
theorem formatDate_copies {m : Moment} {text : List Char} (hquote : c ≠ '\'')
    (hc : isFieldChar c = false) (h : formatDate pattern m = .ok text) :
    Copies c pattern m text := by
  obtain ⟨rs, ended, hreads⟩ := exists_reads false pattern
  obtain ⟨-, rfl, rfl⟩ := ((interprets_of_reads hreads).written m text).1 h
  have hletter : c.isAlpha = false := by
    cases halpha : c.isAlpha with
    | false => rfl
    | true =>
        rw [isFieldChar_of_isAlpha halpha] at hc
        cases hc
  refine ⟨?_, rs, hreads, rfl, fun run _ hmem => (Run.mem_text_iff hc m).1 hmem⟩
  rw [count_texts hc, hreads.count_copied hquote hletter]

theorem not_mem_of_copies {m : Moment} {text : List Char} (h : Copies c pattern m text)
    (hc : c ∉ pattern) : c ∉ text := by
  rw [← List.count_eq_zero, h.count, List.count_eq_zero.2 hc]

end Pattern

end MessageArchive.Calendar
