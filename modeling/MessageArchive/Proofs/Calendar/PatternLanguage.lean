import MessageArchive.Calendar.Format
import MessageArchive.Template.Resolver

set_option autoImplicit false

/-! # The language of date patterns

A date pattern is read from left to right in two states, outside and inside quotes. `Reads` lays
down how, over the pattern itself: what two adjacent quotes are, where a quote switches the state,
and how far a run of one letter goes. Each pattern is read in one way and no other (`exists_reads`,
`Reads.unique`).

Whether a moment can be written after a pattern is a matter of this reading alone: the letters
outside quotes have to stand for fields, and the reading has to end outside quotes. What is written
are the runs of the reading one after the other, and what is wrong otherwise is the leftmost letter
that stands for no field, or else the quote that is never closed (`formatDate_interprets`).
-/

namespace MessageArchive.Calendar.Pattern

/-! ## Reading a pattern -/

/-- A pattern read from outside (`false`) or from inside quotes (`true`): what is copied and the
runs of letters in order, and whether the pattern ends inside quotes. -/
inductive Reads : Bool → List Char → List Run → Bool → Prop
  | done (quoted : Bool) : Reads quoted [] [] quoted
  /-- Two adjacent quotes are one quote that is copied, in either state. -/
  | pair {quoted ended : Bool} {rest : List Char} {rs : List Run}
      (following : Reads quoted rest rs ended) :
      Reads quoted ('\'' :: '\'' :: rest) (.copied '\'' :: rs) ended
  /-- A quote without another one behind it switches the state. -/
  | switch {quoted ended : Bool} {rest : List Char} {rs : List Run}
      (alone : rest.head? ≠ some '\'') (following : Reads (!quoted) rest rs ended) :
      Reads quoted ('\'' :: rest) rs ended
  /-- Inside quotes all else is copied. -/
  | inside {ended : Bool} {c : Char} {rest : List Char} {rs : List Run} (noQuote : c ≠ '\'')
      (following : Reads true rest rs ended) : Reads true (c :: rest) (.copied c :: rs) ended
  /-- Outside quotes what is not an ASCII letter is copied. -/
  | outside {ended : Bool} {c : Char} {rest : List Char} {rs : List Run} (noQuote : c ≠ '\'')
      (noLetter : c.isAlpha = false) (following : Reads false rest rs ended) :
      Reads false (c :: rest) (.copied c :: rs) ended
  /-- A run of one letter goes on as long as the letter does. -/
  | letters {ended : Bool} {c : Char} {count : Nat} {rest : List Char} {rs : List Run}
      (letter : c.isAlpha = true) (maximal : rest.head? ≠ some c)
      (following : Reads false rest rs ended) :
      Reads false (List.replicate (count + 1) c ++ rest) (.letters c (count + 1) :: rs) ended

/-! ### Marks and runs

The reading goes over the quotes first and gathers the letters then. Here the two steps are told in
terms of the pattern. -/

theorem marks_alone {quoted : Bool} {rest : List Char} (h : rest.head? ≠ some '\'') :
    marks quoted ('\'' :: rest) = marks (!quoted) rest := by
  refine marks.eq_3 quoted rest fun more hmore => h ?_
  rw [hmore, List.head?_cons]

theorem marks_char (quoted : Bool) {c : Char} (h : c ≠ '\'') (rest : List Char) :
    marks quoted (c :: rest) =
      ((if !quoted && c.isAlpha then .letter c else .copied c) :: (marks quoted rest).1,
        (marks quoted rest).2) :=
  marks.eq_4 quoted c rest (fun _ hc _ => h hc) h

theorem ne_quote_of_isAlpha {c : Char} (h : c.isAlpha = true) : c ≠ '\'' := by
  rintro rfl
  exact absurd h (by decide)

theorem marks_letters {c : Char} (h : c.isAlpha = true) (count : Nat) (rest : List Char) :
    marks false (List.replicate count c ++ rest) =
      (List.replicate count (.letter c) ++ (marks false rest).1, (marks false rest).2) := by
  induction count with
  | zero => rfl
  | succ count ih =>
      rw [List.replicate_succ, List.cons_append, marks_char false (ne_quote_of_isAlpha h), ih]
      simp [h, List.replicate_succ]

/-- Inside quotes nothing is a letter up to the quote that closes them. -/
theorem head?_marks_inside {s : List Char} (h : s.head? ≠ some '\'') (c : Char) :
    (marks true s).1.head? ≠ some (.letter c) := by
  cases s with
  | nil => simp [marks]
  | cons d rest =>
      have hd : d ≠ '\'' := by simpa using h
      simp [marks_char true hd]

/-- Outside quotes a text that does not begin with a letter gives no mark of this letter first. -/
theorem head?_marks_outside {s : List Char} {c : Char} (h : s.head? ≠ some c) :
    (marks false s).1.head? ≠ some (.letter c) := by
  cases s with
  | nil => simp [marks]
  | cons d rest =>
      by_cases hd : d = '\''
      · subst hd
        by_cases halone : rest.head? = some '\''
        · obtain ⟨more, rfl⟩ := List.head?_eq_some_iff.1 halone
          simp [marks]
        · rw [marks_alone halone]
          exact head?_marks_inside halone c
      · have hne : d ≠ c := by simpa using h
        rw [marks_char false hd, List.head?_cons]
        split
        · simpa using hne
        · simp

theorem addLetter_eq (c : Char) (rs : List Run) :
    ∃ count rest, addLetter c rs = .letters c count :: rest := by
  unfold addLetter
  split
  next d count rest =>
    split
    next hcd => exact ⟨count + 1, rest, by rw [hcd]⟩
    next => exact ⟨1, _, rfl⟩
  next => exact ⟨1, rs, rfl⟩

/-- Marks that do not begin with a letter do not make a run of it longer. -/
theorem addLetter_runs {c : Char} {ms : List Mark} (h : ms.head? ≠ some (.letter c)) :
    addLetter c (runs ms) = .letters c 1 :: runs ms := by
  cases ms with
  | nil => rfl
  | cons mark rest =>
      cases mark with
      | copied d => rfl
      | letter d =>
          have hne : c ≠ d := fun hcd => h (by rw [hcd, List.head?_cons])
          obtain ⟨count, more, hadd⟩ := addLetter_eq d (runs rest)
          rw [runs, hadd, addLetter, if_neg hne]

theorem runs_letters {c : Char} {ms : List Mark} (h : ms.head? ≠ some (.letter c)) (count : Nat) :
    runs (List.replicate (count + 1) (.letter c) ++ ms) = .letters c (count + 1) :: runs ms := by
  induction count with
  | zero => exact addLetter_runs h
  | succ count ih =>
      rw [List.replicate_succ, List.cons_append, runs, ih, addLetter, if_pos rfl]

/-! ### One reading -/

variable {quoted ended ended' : Bool} {pattern : List Char} {rs rs' : List Run}

/-- What is read are the runs of the marks. -/
theorem Reads.eq_marks (h : Reads quoted pattern rs ended) :
    rs = runs (marks quoted pattern).1 ∧ ended = (marks quoted pattern).2 := by
  induction h with
  | done quoted => exact ⟨rfl, rfl⟩
  | pair following ih =>
      obtain ⟨rfl, rfl⟩ := ih
      exact ⟨rfl, rfl⟩
  | switch alone following ih =>
      rw [marks_alone alone]
      exact ih
  | inside noQuote following ih =>
      obtain ⟨rfl, rfl⟩ := ih
      rw [marks_char true noQuote]
      exact ⟨rfl, rfl⟩
  | outside noQuote noLetter following ih =>
      obtain ⟨rfl, rfl⟩ := ih
      rw [marks_char false noQuote, noLetter]
      exact ⟨rfl, rfl⟩
  | letters letter maximal following ih =>
      obtain ⟨rfl, rfl⟩ := ih
      rw [marks_letters letter, runs_letters (head?_marks_outside maximal)]
      exact ⟨rfl, rfl⟩

/-- A pattern is read in one way only. -/
theorem Reads.unique (h : Reads quoted pattern rs ended) (h' : Reads quoted pattern rs' ended') :
    rs' = rs ∧ ended' = ended := by
  obtain ⟨rfl, rfl⟩ := h.eq_marks
  exact h'.eq_marks

/-- A letter in front of a pattern begins a run, or makes the run longer that stands there. -/
theorem Reads.cons_letter {c : Char} (hc : c.isAlpha = true) (h : Reads false pattern rs ended) :
    ∃ rs', Reads false (c :: pattern) rs' ended := by
  by_cases hmax : pattern.head? = some c
  · cases h with
    | done => cases hmax
    | pair =>
        obtain rfl := Option.some.inj hmax
        exact absurd hc (by decide)
    | switch =>
        obtain rfl := Option.some.inj hmax
        exact absurd hc (by decide)
    | outside noQuote noLetter following =>
        obtain rfl := Option.some.inj hmax
        rw [noLetter] at hc
        cases hc
    | @letters _ d count rest rs letter maximal following =>
        obtain rfl : d = c := by simpa [List.replicate_succ] using hmax
        exact ⟨.letters d (count + 2) :: rs, .letters letter maximal following⟩
  · exact ⟨.letters c 1 :: rs, @Reads.letters ended c 0 pattern rs hc hmax h⟩

theorem exists_reads (quoted : Bool) (pattern : List Char) :
    ∃ rs ended, Reads quoted pattern rs ended := by
  -- The induction is on the reading of the quotes, which looks one character ahead as well.
  induction quoted, pattern using marks.induct with
  | case1 quoted => exact ⟨[], quoted, .done quoted⟩
  | case2 quoted rest ms ended _ ih =>
      obtain ⟨rs, ended, hrest⟩ := ih
      exact ⟨_, ended, .pair hrest⟩
  | case3 quoted rest hnone ih =>
      obtain ⟨rs, ended, hrest⟩ := ih
      refine ⟨rs, ended, .switch (fun hhead => ?_) hrest⟩
      obtain ⟨more, hmore⟩ := List.head?_eq_some_iff.1 hhead
      exact hnone more hmore
  | case4 quoted c rest _ hquote ms ended _ ih =>
      obtain ⟨rs, ended, hrest⟩ := ih
      cases quoted with
      | true => exact ⟨_, ended, .inside hquote hrest⟩
      | false =>
          cases hc : c.isAlpha with
          | false => exact ⟨_, ended, .outside hquote hc hrest⟩
          | true =>
              obtain ⟨rs', hrs'⟩ := hrest.cons_letter hc
              exact ⟨rs', ended, hrs'⟩

/-! ## Letters that stand for fields -/

/-- The letters that stand for fields. -/
def fieldLetters : List Char :=
  ['G', 'y', 'Y', 'M', 'L', 'w', 'D', 'd', 'F', 'E', 'u', 'a', 'H', 'k', 'K', 'h', 'm', 's', 'S',
    'z', 'Z', 'X']

theorem ofLetter?_eq_none_iff {c : Char} : Field.ofLetter? c = none ↔ c ∉ fieldLetters := by
  constructor
  · intro h hmem
    have hall : ∀ d ∈ fieldLetters, (Field.ofLetter? d).isSome = true := List.all_eq_true.1 rfl
    exact absurd (hall c hmem) (by simp [h])
  · intro h
    unfold Field.ofLetter?
    split <;> first | rfl | exact absurd (by decide) h

/-- All letters outside quotes stand for fields. -/
def Legal (rs : List Run) : Prop := ∀ c count, .letters c count ∈ rs → c ∈ fieldLetters

/-- The letter is the leftmost outside quotes that stands for no field. -/
def FirstIllegal (c : Char) (rs : List Run) : Prop :=
  ∃ before count after, rs = before ++ .letters c count :: after ∧ Legal before ∧ c ∉ fieldLetters

/-- What is written for a run: itself where it is copied, and else the field of the letter, for the
length of the run. -/
def Run.text (m : Moment) : Run → List Char
  | .copied c => [c]
  | .letters c count => (Field.ofLetter? c).elim [] fun meaning => meaning.text m count

theorem legal_nil : Legal [] := fun _ _ h => absurd h List.not_mem_nil

theorem legal_copied (c : Char) : Legal [.copied c] := by
  intro d count h
  cases List.mem_singleton.1 h

theorem legal_letters {c : Char} {count : Nat} : Legal [.letters c count] ↔ c ∈ fieldLetters := by
  constructor
  · exact fun h => h c count (List.mem_singleton_self _)
  · intro h d n hmem
    cases List.mem_singleton.1 hmem
    exact h

theorem legal_cons {run : Run} : Legal (run :: rs) ↔ Legal [run] ∧ Legal rs := by
  simp only [Legal, List.mem_cons, List.not_mem_nil, or_false]
  constructor
  · intro h
    exact ⟨fun c count hrun => h c count (Or.inl hrun), fun c count hmem => h c count (Or.inr hmem)⟩
  · rintro ⟨hrun, hrest⟩ c count (hmem | hmem)
    · exact hrun c count hmem
    · exact hrest c count hmem

theorem FirstIllegal.not_legal {c : Char} (h : FirstIllegal c rs) : ¬ Legal rs := by
  obtain ⟨before, count, after, rfl, -, hc⟩ := h
  exact fun hlegal => hc (hlegal c count (by simp))

theorem legal_or_firstIllegal (rs : List Run) : Legal rs ∨ ∃ c, FirstIllegal c rs := by
  induction rs with
  | nil => exact Or.inl legal_nil
  | cons run rest ih =>
      by_cases hrun : Legal [run]
      · rcases ih with hrest | ⟨c, before, count, after, rfl, hbefore, hc⟩
        · exact Or.inl (legal_cons.2 ⟨hrun, hrest⟩)
        · exact Or.inr ⟨c, run :: before, count, after, rfl, legal_cons.2 ⟨hrun, hbefore⟩, hc⟩
      · cases run with
        | copied c => exact absurd (legal_copied c) hrun
        | letters c count =>
            have hc : c ∉ fieldLetters := fun hmem => hrun (legal_letters.2 hmem)
            exact Or.inr ⟨c, [], count, rest, rfl, legal_nil, hc⟩

/-! ### Items -/

/-- A legal run is read as an item that writes the same. -/
theorem item_of_legal {run : Run} (h : Legal [run]) :
    ∃ item, run.item = .ok item ∧ ∀ m, item.text m = run.text m := by
  cases run with
  | copied c => exact ⟨.copied c, rfl, fun m => rfl⟩
  | letters c count =>
      cases hc : Field.ofLetter? c with
      | none => exact absurd (legal_letters.1 h) (ofLetter?_eq_none_iff.1 hc)
      | some meaning =>
          refine ⟨.field meaning count, ?_, fun m => ?_⟩
          · simp only [Run.item, hc]
          · simp only [Run.text, hc, Option.elim_some, Item.text]

theorem itemsOfRuns_of_legal (h : Legal rs) :
    ∃ items, itemsOfRuns rs = .ok items ∧
      ∀ m, items.flatMap (Item.text m) = rs.flatMap (Run.text m) := by
  induction rs with
  | nil => exact ⟨[], rfl, fun m => rfl⟩
  | cons run rest ih =>
      obtain ⟨hrun, hrest⟩ := legal_cons.1 h
      obtain ⟨item, hitem, htext⟩ := item_of_legal hrun
      obtain ⟨items, hitems, htexts⟩ := ih hrest
      refine ⟨item :: items, ?_, fun m => ?_⟩
      · simp only [itemsOfRuns, hitem, hitems, Except.map]
      · rw [List.flatMap_cons, List.flatMap_cons, htext, htexts]

/-- The first illegal letter is handed back, whatever follows it. -/
theorem itemsOfRuns_of_firstIllegal {c : Char} (h : FirstIllegal c rs) :
    itemsOfRuns rs = .error (.illegalLetter c) := by
  obtain ⟨before, count, after, rfl, hbefore, hc⟩ := h
  induction before with
  | nil =>
      have hitem : (Run.letters c count).item = .error (.illegalLetter c) := by
        simp only [Run.item, ofLetter?_eq_none_iff.2 hc]
      rw [List.nil_append, itemsOfRuns, hitem]
  | cons run before ih =>
      obtain ⟨hrun, hrest⟩ := legal_cons.1 hbefore
      obtain ⟨item, hitem, -⟩ := item_of_legal hrun
      rw [List.cons_append, itemsOfRuns, hitem, ih hrest]
      rfl

/-! ## Writing a moment -/

section

variable (h : Reads false pattern rs ended) (m : Moment)

include h

theorem formatDate_of_closed (hlegal : Legal rs) (hclosed : ended = false) :
    formatDate pattern m = .ok (rs.flatMap (Run.text m)) := by
  obtain ⟨items, hitems, htext⟩ := itemsOfRuns_of_legal hlegal
  obtain ⟨rfl, rfl⟩ := h.eq_marks
  simp only [formatDate, read, hitems, hclosed, Bool.false_eq_true, if_false, Except.map, htext]

theorem formatDate_of_unclosed (hlegal : Legal rs) (hunclosed : ended = true) :
    formatDate pattern m = .error .unterminatedQuote := by
  obtain ⟨items, hitems, -⟩ := itemsOfRuns_of_legal hlegal
  obtain ⟨rfl, rfl⟩ := h.eq_marks
  simp only [formatDate, read, hitems, hunclosed, if_true, Except.map]

theorem formatDate_of_firstIllegal {c : Char} (hc : FirstIllegal c rs) :
    formatDate pattern m = .error (.illegalLetter c) := by
  have herror := itemsOfRuns_of_firstIllegal hc
  obtain ⟨rfl, rfl⟩ := h.eq_marks
  simp only [formatDate, read, herror, Except.map]

end

/-- How the reading of a pattern decides what comes of it. -/
structure Interprets (pattern : List Char) (rs : List Run) (ended : Bool) : Prop where
  /-- What is written is the reading, run by run. -/
  written : ∀ m text, formatDate pattern m = .ok text ↔
    Legal rs ∧ ended = false ∧ text = rs.flatMap (Run.text m)
  /-- The leftmost illegal letter is what is wrong, when there is one. -/
  illegal : ∀ m c, formatDate pattern m = .error (.illegalLetter c) ↔ FirstIllegal c rs
  /-- A quote that is not closed is what is wrong only when all letters are legal. -/
  unterminated : ∀ m, formatDate pattern m = .error .unterminatedQuote ↔ Legal rs ∧ ended = true
  /-- A pattern that fails does so at every moment, and in the same way. -/
  timeless : ∀ m m' fault, formatDate pattern m = .error fault → formatDate pattern m' = .error fault
  /-- In a template, what is wrong with the pattern is a fault of the template. -/
  malformed : ∀ m fault body, formatDate pattern m = .error fault → Text.trim body = pattern →
    (Template.resolveDate m body).result =
      .error (.malformed (.datePattern (String.ofList pattern) fault))

/-- One of three things comes of a pattern, and its reading says which. -/
theorem formatDate_cases (h : Reads false pattern rs ended) :
    (Legal rs ∧ ended = false ∧ ∀ m, formatDate pattern m = .ok (rs.flatMap (Run.text m))) ∨
      (Legal rs ∧ ended = true ∧ ∀ m, formatDate pattern m = .error .unterminatedQuote) ∨
        ∃ c, FirstIllegal c rs ∧ ¬ Legal rs ∧
          ∀ m, formatDate pattern m = .error (.illegalLetter c) := by
  rcases legal_or_firstIllegal rs with hlegal | ⟨c, hc⟩
  · cases hended : ended with
    | false => exact Or.inl ⟨hlegal, rfl, fun m => formatDate_of_closed h m hlegal hended⟩
    | true => exact Or.inr (Or.inl ⟨hlegal, rfl, fun m => formatDate_of_unclosed h m hlegal hended⟩)
  · exact Or.inr (Or.inr ⟨c, hc, hc.not_legal, fun m => formatDate_of_firstIllegal h m hc⟩)

theorem resolveDate_of_error {m : Moment} {fault : Fault} {body : List Char}
    (h : formatDate (Text.trim body) m = .error fault) :
    (Template.resolveDate m body).result =
      .error (.malformed (.datePattern (String.ofList (Text.trim body)) fault)) := by
  rw [Template.resolveDate, Audit.Traced.bind_of_ok _ (Audit.Traced.result_record _), h]
  rfl

theorem interprets_of_reads (h : Reads false pattern rs ended) : Interprets pattern rs ended := by
  refine ⟨fun m text => ?_, fun m c => ?_, fun m => ?_, fun m m' fault hfault => ?_, ?_⟩
  · rcases formatDate_cases h with ⟨hlegal, hended, hall⟩ | ⟨-, hended, hall⟩ | ⟨c, -, hnot, hall⟩
    · simp [hall m, hlegal, hended, eq_comm]
    · simp [hall m, hended]
    · simp [hall m, hnot]
  · constructor
    · intro hc
      rcases formatDate_cases h with ⟨-, -, hall⟩ | ⟨-, -, hall⟩ | ⟨d, hd, -, hall⟩
      · simp [hall m] at hc
      · simp [hall m] at hc
      · obtain rfl : d = c := by simpa [hall m] using hc
        exact hd
    · exact formatDate_of_firstIllegal h m
  · rcases formatDate_cases h with ⟨-, hended, hall⟩ | ⟨hlegal, hended, hall⟩ | ⟨c, -, hnot, hall⟩
    · simp [hall m, hended]
    · simp [hall m, hlegal, hended]
    · simp [hall m, hnot]
  · rcases formatDate_cases h with ⟨-, -, hall⟩ | ⟨-, -, hall⟩ | ⟨c, -, -, hall⟩
    · rw [hall m] at hfault
      cases hfault
    · rw [hall m', ← hfault, hall m]
    · rw [hall m', ← hfault, hall m]
  · rintro m fault body hfault rfl
    exact resolveDate_of_error hfault

/-- **The language of date patterns.** Each pattern is read in one way and no other. A moment can be
written after it exactly when every letter outside quotes stands for a field and the pattern ends
outside quotes, and then the runs of the reading are written one after the other. Otherwise the
leftmost letter that stands for no field is what is wrong, and where there is none the quote that is
not closed; neither depends on the moment. -/
theorem formatDate_interprets (pattern : List Char) :
    ∃ rs ended, Reads false pattern rs ended ∧
      (∀ rs' ended', Reads false pattern rs' ended' → rs' = rs ∧ ended' = ended) ∧
        Interprets pattern rs ended := by
  obtain ⟨rs, ended, h⟩ := exists_reads false pattern
  exact ⟨rs, ended, h, fun rs' ended' h' => h.unique h', interprets_of_reads h⟩

-- A pair of quotes stays a quote inside quotes, and the quote behind it closes them.
example (m : Moment) : formatDate "'a''b''c'".toList m = .ok "a'b'c".toList := by rfl

-- A letter that stands for no field is what is wrong, also when a quote behind it is never closed.
example (m : Moment) : formatDate "Q'J".toList m = .error (.illegalLetter 'Q') := by rfl

end MessageArchive.Calendar.Pattern
