import MessageArchive.Proofs.Text.Trimming
import MessageArchive.Text.Enclosed

set_option autoImplicit false

/-! # Where a placeholder stands

The leftmost placeholder of a text is found by looking at characters, and told by two positions that
count bytes. A position may be in the midst of a character, and a text cannot be sliced there
(`slice?`). The two positions of a placeholder never are: they stand behind whole texts
(`slice?_eq_some_iff`), the one behind what is before the placeholder and the other behind the
placeholder itself (`Located`). So the three parts of the text can be sliced off.
-/

namespace MessageArchive.Text

/-! ## Slices between byte positions -/

/-- The length in bytes is the one that the text has as it is stored. -/
theorem utf8Length_eq (s : List Char) : utf8Length s = (String.ofList s).utf8ByteSize := by
  induction s with
  | nil => rfl
  | cons c s ih =>
      have hsplit : String.ofList (c :: s) = String.singleton c ++ String.ofList s := by
        rw [String.singleton_eq_ofList, ← String.ofList_append]
        rfl
      rw [utf8Length_cons, ih, hsplit, String.utf8ByteSize_append, String.utf8ByteSize_singleton]

/-- The text from one byte position to another. There is none unless both positions stand between
characters, and the first is not behind the second. -/
def slice? (s : String) (start stop : Nat) : Option String :=
  if h : (⟨start⟩ : String.Pos.Raw).IsValid s ∧ (⟨stop⟩ : String.Pos.Raw).IsValid s ∧
      start ≤ stop then
    some (s.slice ⟨⟨start⟩, h.1⟩ ⟨⟨stop⟩, h.2.1⟩ h.2.2).copy
  else none

/-- The slices of a text are the parts it has, each from the length of what is before it to the
length up to its end. -/
theorem slice?_eq_some_iff {s t : String} {start stop : Nat} :
    slice? s start stop = some t ↔
      ∃ front back, s = front ++ t ++ back ∧ start = front.utf8ByteSize ∧
        stop = (front ++ t).utf8ByteSize := by
  constructor
  · intro h
    unfold slice? at h
    split at h
    next hlegal =>
      obtain ⟨front, back, hstart, hstop⟩ :=
        String.copy_slice_eq_iff_splits.1 ⟨hlegal.2.2, Option.some.inj h⟩
      exact ⟨front, back, hstop.eq_append,
        congrArg String.Pos.Raw.byteIdx hstart.offset_eq_rawEndPos,
        congrArg String.Pos.Raw.byteIdx hstop.offset_eq_rawEndPos⟩
    next => cases h
  · rintro ⟨front, back, rfl, rfl, rfl⟩
    have hstart : String.Pos.Raw.IsValid (front ++ t ++ back) ⟨front.utf8ByteSize⟩ :=
      String.Pos.Raw.isValid_iff_exists_append.2 ⟨front, t ++ back, String.append_assoc, rfl⟩
    have hstop : String.Pos.Raw.IsValid (front ++ t ++ back) ⟨(front ++ t).utf8ByteSize⟩ :=
      String.Pos.Raw.isValid_iff_exists_append.2 ⟨front ++ t, back, rfl, rfl⟩
    have hle : front.utf8ByteSize ≤ (front ++ t).utf8ByteSize := by
      rw [String.utf8ByteSize_append]
      exact Nat.le_add_right _ _
    obtain ⟨_, hcopy⟩ : ∃ h,
        (String.slice (front ++ t ++ back) ⟨_, hstart⟩ ⟨_, hstop⟩ h).copy = t :=
      String.copy_slice_eq_iff_splits.2 ⟨front, back, ⟨String.append_assoc, rfl⟩, ⟨rfl, rfl⟩⟩
    rw [slice?, dif_pos ⟨hstart, hstop, hle⟩, hcopy]

-- The second character takes up two bytes, and there is no slice that ends between them.
example : slice? "aéb" 1 3 = some "é" ∧ slice? "aéb" 1 2 = none := by decide

/-! ## The leftmost placeholder -/

/-- A body between its delimiters. -/
def placeholder (opener closer : Char) (body : String) : String :=
  .singleton opener ++ body ++ .singleton closer

/-- The text is what stands before its leftmost placeholder, the placeholder, and what stands behind
it. What was found is the place of the placeholder and its body without the blanks around it. -/
structure Located (opener closer : Char) (s before body after : String) (found : Occurrence) :
    Prop where
  text : s = before ++ placeholder opener closer body ++ after
  noOpener : opener ∉ before.toList
  noCloser : closer ∉ body.toList
  start : found.start = before.utf8ByteSize
  stop : found.stop = (before ++ placeholder opener closer body).utf8ByteSize
  inner : IsTrimmed found.inner.toList body.toList

/-- The text has an opener, and there is no closer behind the first one. -/
structure LeftOpen (opener closer : Char) (s before behind : String) : Prop where
  text : s = before ++ .singleton opener ++ behind
  noOpener : opener ∉ before.toList
  noCloser : closer ∉ behind.toList

section

variable {opener closer : Char} {s before body after : String} {found found' : Occurrence}

theorem toList_around (opener closer : Char) (before body after : String) :
    (before ++ placeholder opener closer body ++ after).toList =
      before.toList ++ opener :: (body.toList ++ closer :: after.toList) := by
  simp [placeholder]

namespace Located

theorem cut_eq (h : Located opener closer s before body after found) :
    cut opener closer s.toList = .found before.toList body.toList after.toList := by
  refine cut_eq_found_iff.2 ⟨?_, h.noOpener, h.noCloser⟩
  rw [h.text, toList_around]

theorem inner_eq (h : Located opener closer s before body after found) :
    found.inner = .ofList (trim body.toList) := by
  rw [← isTrimmed_iff.1 h.inner, String.ofList_toList]

/-- A placeholder has one place and one core. -/
theorem unique (h : Located opener closer s before body after found)
    (h' : Located opener closer s before body after found') : found = found' := by
  obtain ⟨start, stop, inner⟩ := found
  obtain ⟨start', stop', inner'⟩ := found'
  have hstart : start = start' := h.start.trans h'.start.symm
  have hstop : stop = stop' := h.stop.trans h'.stop.symm
  have hinner : inner = inner' := h.inner_eq.trans h'.inner_eq.symm
  rw [hstart, hstop, hinner]

/-! ### Its slices -/

theorem slice?_before (h : Located opener closer s before body after found) :
    slice? s 0 found.start = some before := by
  refine slice?_eq_some_iff.2 ⟨"", placeholder opener closer body ++ after, ?_, rfl, ?_⟩
  · rw [String.empty_append, ← String.append_assoc]
    exact h.text
  · rw [String.empty_append]
    exact h.start

theorem slice?_placeholder (h : Located opener closer s before body after found) :
    slice? s found.start found.stop = some (placeholder opener closer body) :=
  slice?_eq_some_iff.2 ⟨before, after, h.text, h.start, h.stop⟩

theorem slice?_after (h : Located opener closer s before body after found) :
    slice? s found.stop s.utf8ByteSize = some after := by
  refine slice?_eq_some_iff.2 ⟨before ++ placeholder opener closer body, "", ?_, h.stop, ?_⟩
  · rw [String.append_empty]
    exact h.text
  · rw [← h.text]

theorem isValid_start (h : Located opener closer s before body after found) :
    (⟨found.start⟩ : String.Pos.Raw).IsValid s := by
  refine String.Pos.Raw.isValid_iff_exists_append.2
    ⟨before, placeholder opener closer body ++ after, ?_, ?_⟩
  · rw [h.text, String.append_assoc]
  · rw [h.start]
    rfl

theorem isValid_stop (h : Located opener closer s before body after found) :
    (⟨found.stop⟩ : String.Pos.Raw).IsValid s := by
  refine String.Pos.Raw.isValid_iff_exists_append.2
    ⟨before ++ placeholder opener closer body, after, h.text, ?_⟩
  rw [h.stop]
  rfl

/-- What stands behind the placeholder is shorter than the text, if only by the opener. -/
theorem size_after_lt (h : Located opener closer s before body after found) :
    after.utf8ByteSize < s.utf8ByteSize := by
  have hopener : 0 < opener.utf8Size := opener.utf8Size_pos
  simp only [h.text, placeholder, String.utf8ByteSize_append, String.utf8ByteSize_singleton]
  omega

/-- Behind the placeholder there is at least one opener less. -/
theorem count_after_lt (h : Located opener closer s before body after found) :
    after.toList.count opener < s.toList.count opener := by
  rw [h.text, toList_around]
  simp only [List.count_append, List.count_cons, beq_self_eq_true, if_true]
  omega

end Located

/-! ## How the search ends -/

theorem exists_located_of_cut {before body after : List Char}
    (h : cut opener closer s.toList = .found before body after) :
    ∃ found, findEnclosed s opener closer = .ok (some found) ∧
      Located opener closer s (.ofList before) (.ofList body) (.ofList after) found := by
  obtain ⟨htext, hbefore, hbody⟩ := cut_eq_found_iff.1 h
  refine ⟨_, by rw [findEnclosed, h], ?_, ?_, ?_, ?_, ?_, ?_⟩
  · rw [← String.toList_inj, toList_around]
    simpa using htext
  · simpa using hbefore
  · simpa using hbody
  · exact utf8Length_eq before
  · simp only [placeholder, String.utf8ByteSize_append, String.utf8ByteSize_singleton,
      ← utf8Length_eq, Nat.add_assoc]
  · simpa using isTrimmed_trim body

theorem findEnclosed_eq_none_iff : findEnclosed s opener closer = .ok none ↔ opener ∉ s.toList := by
  rw [← cut_eq_absent_iff, findEnclosed]
  cases cut opener closer s.toList <;> simp

theorem findEnclosed_eq_some_iff :
    findEnclosed s opener closer = .ok (some found) ↔
      ∃ before body after, Located opener closer s before body after found := by
  constructor
  · intro h
    cases hcut : cut opener closer s.toList with
    | absent => simp [findEnclosed, hcut] at h
    | unclosed => simp [findEnclosed, hcut] at h
    | found before body after =>
        obtain ⟨found', hfound', hlocated⟩ := exists_located_of_cut hcut
        obtain rfl : found = found' := by simpa [hfound'] using h.symm
        exact ⟨_, _, _, hlocated⟩
  · rintro ⟨before, body, after, h⟩
    obtain ⟨found', hfound', hlocated⟩ := exists_located_of_cut h.cut_eq
    simp only [String.ofList_toList] at hlocated
    rw [hfound', h.unique hlocated]

theorem leftOpen_iff :
    (∃ before behind, LeftOpen opener closer s before behind) ↔
      cut opener closer s.toList = .unclosed := by
  rw [cut_eq_unclosed_iff]
  constructor
  · rintro ⟨before, behind, rfl, hbefore, hbehind⟩
    exact ⟨before.toList, behind.toList, by simp, hbefore, hbehind⟩
  · rintro ⟨before, behind, hs, hbefore, hbehind⟩
    refine ⟨.ofList before, .ofList behind, ?_, by simpa using hbefore, by simpa using hbehind⟩
    rw [← String.toList_inj, hs]
    simp

theorem findEnclosed_eq_error_iff {missing : Char} :
    findEnclosed s opener closer = .error missing ↔
      missing = closer ∧ ∃ before behind, LeftOpen opener closer s before behind := by
  rw [leftOpen_iff, findEnclosed]
  cases cut opener closer s.toList <;> simp [eq_comm]

end

end MessageArchive.Text
