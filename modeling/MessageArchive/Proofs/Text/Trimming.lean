import MessageArchive.Text.Blank

set_option autoImplicit false

/-! # What trimming leaves

A text is blanks, then its core, then blanks, where the core neither begins nor ends with a blank.
There is one core (`isTrimmed_iff`), and trimming gives it.
-/

namespace MessageArchive.Text

/-- The core is what the text is without the blanks around it. -/
structure IsTrimmed (core text : List Char) : Prop where
  around : ∃ front back, text = front ++ core ++ back ∧
    (∀ c ∈ front, isBlank c = true) ∧ ∀ c ∈ back, isBlank c = true
  begins : ∀ c, core.head? = some c → isBlank c = false
  ends : ∀ c, core.getLast? = some c → isBlank c = false

theorem trimStart_blanks {front : List Char} (h : ∀ c ∈ front, isBlank c = true) (s : List Char) :
    trimStart (front ++ s) = trimStart s :=
  List.dropWhile_append_of_pos h

theorem trimStart_eq_self {s : List Char} (h : ∀ c, s.head? = some c → isBlank c = false) :
    trimStart s = s := by
  cases s with
  | nil => rfl
  | cons c s => exact trimStart_cons_of_not_blank s (h c rfl)

/-- What is taken off at the start are blanks, up to the first character that is none. -/
theorem exists_trimStart (s : List Char) :
    ∃ front, s = front ++ trimStart s ∧ (∀ c ∈ front, isBlank c = true) ∧
      ∀ c, (trimStart s).head? = some c → isBlank c = false := by
  refine ⟨s.takeWhile isBlank, List.takeWhile_append_dropWhile.symm,
    fun c hc => List.all_eq_true.1 (List.all_takeWhile) c hc, fun c hc => ?_⟩
  have hfirst := List.head?_dropWhile_not isBlank s
  rw [show (s.dropWhile isBlank).head? = some c from hc] at hfirst
  simpa using hfirst

theorem isTrimmed_trim (s : List Char) : IsTrimmed (trim s) s := by
  obtain ⟨front, hfront, hblank, hbegins⟩ := exists_trimStart s
  -- At the end the same happens to the text read backwards.
  obtain ⟨back, hback, hblank', hends⟩ := exists_trimStart (trimStart s).reverse
  have hcore : trimStart s = trim s ++ back.reverse := by
    rw [← List.reverse_inj, hback]
    simp [trim, trimEnd]
  refine ⟨⟨front, back.reverse, ?_, hblank, by simpa using hblank'⟩, fun c hc => ?_, fun c hc => ?_⟩
  · rw [List.append_assoc, ← hcore]
    exact hfront
  · refine hbegins c ?_
    rw [hcore, List.head?_append, hc]
    rfl
  · refine hends c ?_
    rw [← List.getLast?_reverse]
    exact hc

theorem mem_of_mem_trim {s : List Char} {c : Char} (h : c ∈ trim s) : c ∈ s := by
  obtain ⟨front, back, hs, -, -⟩ := (isTrimmed_trim s).around
  rw [hs]
  simp [h]

/-- There is one core, and trimming gives it. -/
theorem isTrimmed_iff {core s : List Char} : IsTrimmed core s ↔ core = trim s := by
  refine ⟨?_, fun h => h ▸ isTrimmed_trim s⟩
  rintro ⟨⟨front, back, rfl, hfront, hback⟩, hbegins, hends⟩
  have hstart : trim (front ++ core ++ back) = trimEnd (trimStart (core ++ back)) := by
    rw [trim, List.append_assoc, trimStart_blanks hfront]
  rw [hstart]
  cases core with
  | nil =>
      -- Without a core all of the text are blanks.
      have hnone : trimStart ([] ++ back) = [] := by
        rw [List.nil_append]
        simpa [trimStart] using trimStart_blanks hback []
      rw [hnone]
      rfl
  | cons c core =>
      rw [List.cons_append, trimStart_cons_of_not_blank _ (hbegins c rfl), ← List.cons_append,
        trimEnd, List.reverse_append, trimStart_blanks (by simpa using hback),
        trimStart_eq_self fun d hd => hends d (List.head?_reverse.symm.trans hd),
        List.reverse_reverse]

end MessageArchive.Text
