import MessageArchive.Proofs.Calendar.PatternLanguage

set_option autoImplicit false

/-! # Laws of date patterns

Two laws that a pattern's reading obeys (`Pattern.Reads`).

* Patterns put one behind the other write their texts one behind the other, unless a run of letters
  or a pair of quotes forms across the border (`Pattern.Merges`). The first pattern has to end
  outside quotes, and it does where a moment can be written after it.
* A text is protected by quotes around it, with its own quotes doubled (`Pattern.quoted`). The quotes
  the text begins with are read outside the quotes around it and the others inside, but a pair of
  quotes is the same in either state.
-/

namespace MessageArchive.Calendar.Pattern

variable {p q : List Char} {rs rs' : List Run} {state ended : Bool}

/-! ## Patterns behind each other -/

/-- The last character of the first pattern is the first of the second, and it is a letter or a
quote: the two can be read as one run or as one pair. -/
def Merges (p q : List Char) : Prop :=
  ∃ c, p.getLast? = some c ∧ q.head? = some c ∧ (c.isAlpha = true ∨ c = '\'')

theorem not_merges_of_cons {c : Char} (h : ¬ Merges (c :: p) q) : ¬ Merges p q := by
  rintro ⟨d, hlast, hhead, hd⟩
  exact h ⟨d, by rw [List.getLast?_cons, hlast]; rfl, hhead, hd⟩

theorem not_merges_of_append {above : List Char} (h : ¬ Merges (above ++ p) q) : ¬ Merges p q := by
  induction above with
  | nil => exact h
  | cons c above ih => exact ih (not_merges_of_cons h)

/-- What does not stand behind a quote or a letter in the first pattern does not stand there when the
second pattern follows. -/
theorem head?_append_ne (above : List Char) {c : Char} (h : ¬ Merges (above ++ c :: p) q)
    (hc : c.isAlpha = true ∨ c = '\'') (hp : p.head? ≠ some c) : (p ++ q).head? ≠ some c := by
  cases p with
  | nil =>
      intro hq
      exact h ⟨c, by rw [List.getLast?_concat], hq, hc⟩
  | cons d p => exact hp

/-- A pattern that ends outside quotes is read as it is read alone, and what follows it as well. -/
theorem Reads.append (h : Reads state p rs false) (h' : Reads false q rs' ended)
    (hborder : ¬ Merges p q) : Reads state (p ++ q) (rs ++ rs') ended := by
  -- The induction is on the reading of the first pattern, with `false` as the state it ends in.
  generalize hclosed : false = closed at h
  induction h with
  | done =>
      subst hclosed
      exact h'
  | pair following ih =>
      exact .pair (ih (not_merges_of_cons (not_merges_of_cons hborder)) hclosed)
  | @switch _ _ rest _ alone following ih =>
      refine .switch ?_ (ih (not_merges_of_cons hborder) hclosed)
      exact head?_append_ne [] hborder (Or.inr rfl) alone
  | inside noQuote following ih =>
      exact .inside noQuote (ih (not_merges_of_cons hborder) hclosed)
  | outside noQuote noLetter following ih =>
      exact .outside noQuote noLetter (ih (not_merges_of_cons hborder) hclosed)
  | @letters _ c count rest _ letter maximal following ih =>
      have hlast : ¬ Merges (List.replicate count c ++ c :: rest) q := by
        rw [← List.singleton_append, ← List.append_assoc, ← List.replicate_succ']
        exact hborder
      rw [List.append_assoc]
      exact .letters letter (head?_append_ne _ hlast (Or.inl letter) maximal)
        (ih (not_merges_of_append hborder) hclosed)

theorem legal_append : Legal (rs ++ rs') ↔ Legal rs ∧ Legal rs' := by
  induction rs with
  | nil => simp [legal_nil]
  | cons run rest ih =>
      have hcons : Legal (run :: rest) ↔ Legal [run] ∧ Legal rest := legal_cons
      rw [List.cons_append, legal_cons, ih, hcons, and_assoc]

theorem FirstIllegal.append {c : Char} (h : Legal rs) (h' : FirstIllegal c rs') :
    FirstIllegal c (rs ++ rs') := by
  obtain ⟨before, count, after, rfl, hbefore, hc⟩ := h'
  exact ⟨rs ++ before, count, after, by rw [List.append_assoc], legal_append.2 ⟨h, hbefore⟩, hc⟩

/-- What comes of the second pattern comes of both, with the first text before it. -/
theorem formatDate_append {m : Moment} {x : List Char} (hp : formatDate p m = .ok x)
    (hborder : ¬ Merges p q) : formatDate (p ++ q) m = (formatDate q m).map (x ++ ·) := by
  obtain ⟨rs, closed, hreads⟩ := exists_reads false p
  obtain ⟨rs', ended, hreads'⟩ := exists_reads false q
  obtain ⟨hlegal, rfl, rfl⟩ := ((interprets_of_reads hreads).written m x).1 hp
  have hboth := hreads.append hreads' hborder
  rcases formatDate_cases hreads' with ⟨hlegal', hended, hq⟩ | ⟨hlegal', hended, hq⟩ | ⟨c, hc, -, hq⟩
  · rw [hq m, formatDate_of_closed hboth m (legal_append.2 ⟨hlegal, hlegal'⟩) hended,
      List.flatMap_append]
    rfl
  · rw [hq m, formatDate_of_unclosed hboth m (legal_append.2 ⟨hlegal, hlegal'⟩) hended]
    rfl
  · rw [hq m, formatDate_of_firstIllegal hboth m (hc.append hlegal)]
    rfl

/-- **Date patterns compose.** When a moment can be written after the first pattern, and neither a run
of letters nor a pair of quotes forms across the border, it can be written after both patterns exactly
when it can be written after the second one; and then the two texts stand one behind the other. -/
theorem patterns_compose {p q : List Char} {m : Moment} {x : List Char}
    (hp : formatDate p m = .ok x) (hborder : ¬ Merges p q) :
    ((∃ z, formatDate (p ++ q) m = .ok z) ↔ ∃ y, formatDate q m = .ok y) ∧
      ∀ y, formatDate q m = .ok y → formatDate (p ++ q) m = .ok (x ++ y) := by
  have happend := formatDate_append hp hborder
  constructor
  · rw [happend]
    cases formatDate q m with
    | error fault => simp [Except.map]
    | ok y => simp [Except.map]
  · intro y hq
    rw [happend, hq]
    rfl

/-- The first pattern ends in the quote that closes its quoted text, and the second begins with a
letter that also stands inside it. -/
theorem patterns_compose_behind_quotes :
    formatDate "yyyy-'w''w'".toList ⟨⟨1609632000, 0⟩, .utc⟩ = .ok "2021-w'w".toList ∧
      ¬ Merges "yyyy-'w''w'".toList "ww'/'u".toList ∧
      formatDate ("yyyy-'w''w'".toList ++ "ww'/'u".toList) ⟨⟨1609632000, 0⟩, .utc⟩ =
        .ok ("2021-w'w".toList ++ "53/7".toList) := by
  have hp : formatDate "yyyy-'w''w'".toList ⟨⟨1609632000, 0⟩, .utc⟩ = .ok "2021-w'w".toList := rfl
  have hborder : ¬ Merges "yyyy-'w''w'".toList "ww'/'u".toList := by
    rintro ⟨c, hlast, hhead, -⟩
    rw [← hlast] at hhead
    exact absurd hhead (by decide)
  exact ⟨hp, hborder, (patterns_compose hp hborder).2 _ rfl⟩

-- Across a border where they meet, two runs are one run, and two quotes are one quote.
example : formatDate ("y".toList ++ "y".toList) ⟨⟨1609632000, 0⟩, .utc⟩ = .ok "21".toList := by rfl

example (m : Moment) : formatDate ("'a'".toList ++ "'b'".toList) m = .ok "a'b".toList := by rfl

/-! ## Quoted text -/

/-- The text with each of its quotes written twice. -/
def doubled (s : List Char) : List Char :=
  s.flatMap fun c => if c = '\'' then ['\'', '\''] else [c]

/-- The text in quotes, with its own quotes written twice. -/
def quoted (s : List Char) : List Char := '\'' :: (doubled s ++ ['\''])

theorem doubled_char {c : Char} (h : c ≠ '\'') (s : List Char) :
    doubled (c :: s) = c :: doubled s := by
  rw [doubled, List.flatMap_cons, if_neg h]
  rfl

/-- Inside quotes the text is read up to the quote behind it. -/
theorem reads_doubled (s : List Char) : Reads true (doubled s ++ ['\'']) (s.map .copied) false := by
  induction s with
  | nil => exact .switch (by simp) (.done false)
  | cons c s ih =>
      by_cases hc : c = '\''
      · subst hc
        exact .pair ih
      · rw [doubled_char hc]
        exact .inside hc ih

/-- Pairs of quotes are read alike outside quotes and inside. -/
theorem reads_pairs (count : Nat) (h : Reads state p rs ended) :
    Reads state (List.replicate (2 * count) '\'' ++ p)
      (List.replicate count (.copied '\'') ++ rs) ended := by
  induction count with
  | zero => exact h
  | succ count ih => exact .pair ih

/-- Quotes in front of what is quoted are read as so many pairs outside the quotes. -/
theorem quoted_replicate_append (count : Nat) (s : List Char) :
    quoted (List.replicate count '\'' ++ s) = List.replicate (2 * count) '\'' ++ quoted s := by
  induction count with
  | zero => rfl
  | succ count ih =>
      have hmul : 2 * (count + 1) = 2 * count + 2 := by omega
      have hquoted : ∀ more, quoted ('\'' :: more) = '\'' :: '\'' :: quoted more := fun more => rfl
      rw [List.replicate_succ, List.cons_append, hquoted, ih, hmul]
      rfl

/-- A text begins with some quotes, and the rest of it with another character. -/
theorem exists_leading_quotes {s : List Char} (h : ∃ c ∈ s, c ≠ '\'') :
    ∃ count c rest, c ≠ '\'' ∧ s = List.replicate count '\'' ++ c :: rest := by
  induction s with
  | nil => simp at h
  | cons d s ih =>
      by_cases hd : d = '\''
      · subst hd
        obtain ⟨c, hmem, hc⟩ := h
        have hs : c ∈ s := (List.mem_cons.1 hmem).resolve_left hc
        obtain ⟨count, e, rest, he, rfl⟩ := ih ⟨c, hs, hc⟩
        exact ⟨count + 1, e, rest, he, rfl⟩
      · exact ⟨0, d, s, hd, rfl⟩

theorem reads_quoted {s : List Char} (h : ∃ c ∈ s, c ≠ '\'') :
    Reads false (quoted s) (s.map .copied) false := by
  obtain ⟨count, c, rest, hc, rfl⟩ := exists_leading_quotes h
  -- The next character is no quote, so the quote before it stands alone and opens the quoted text.
  have hopen : Reads false (quoted (c :: rest)) ((c :: rest).map .copied) false := by
    refine .switch ?_ (reads_doubled (c :: rest))
    rw [doubled_char hc]
    simpa using hc
  rw [quoted_replicate_append, List.map_append, List.map_replicate]
  exact reads_pairs count hopen

theorem legal_map_copied (s : List Char) : Legal (s.map .copied) := by
  intro c count hmem
  obtain ⟨d, -, hd⟩ := List.mem_map.1 hmem
  cases hd

theorem text_map_copied (m : Moment) (s : List Char) :
    (s.map Run.copied).flatMap (Run.text m) = s := by
  induction s with
  | nil => rfl
  | cons c s ih =>
      rw [List.map_cons, List.flatMap_cons, ih]
      rfl

/-- What is read as copied characters is written as they stand. -/
theorem formatDate_of_copied {s : List Char} (h : Reads false p (s.map .copied) false)
    (m : Moment) : formatDate p m = .ok s := by
  rw [formatDate_of_closed h m (legal_map_copied s) rfl, text_map_copied]

theorem reads_quotes (count : Nat) :
    Reads false (List.replicate (2 * count) '\'') ((List.replicate count '\'').map .copied) false := by
  have hpairs := reads_pairs count (.done false)
  rw [List.append_nil, List.append_nil] at hpairs
  rw [List.map_replicate]
  exact hpairs

theorem reads_odd_quotes (count : Nat) :
    Reads false (List.replicate (2 * count + 1) '\'') ((List.replicate count '\'').map .copied)
      true := by
  have hlast : Reads false ['\''] [] true := .switch (by simp) (.done true)
  have hpairs := reads_pairs count hlast
  rw [← List.replicate_succ', List.append_nil] at hpairs
  rw [List.map_replicate]
  exact hpairs

/-- **Quoting round-trips.** At every moment a text with a character other than a quote in it is
written as it stands when it is put in quotes and its own quotes are doubled. Of quotes alone every two
are one quote, and a last one without its fellow is never closed. -/
theorem quoting_round_trips :
    (∀ (s : List Char) (m : Moment), (∃ c ∈ s, c ≠ '\'') → formatDate (quoted s) m = .ok s) ∧
      ∀ (count : Nat) (m : Moment),
        formatDate (List.replicate (2 * count) '\'') m = .ok (List.replicate count '\'') ∧
          formatDate (List.replicate (2 * count + 1) '\'') m = .error .unterminatedQuote := by
  refine ⟨fun s m h => formatDate_of_copied (reads_quoted h) m, fun count m => ⟨?_, ?_⟩⟩
  · exact formatDate_of_copied (reads_quotes count) m
  · exact formatDate_of_unclosed (reads_odd_quotes count) m (legal_map_copied _) rfl

/-- Quotes at both ends of the text and in the middle of it, and letters that stand for no field. -/
theorem quoting_round_trips_at_quotes :
    (∃ c ∈ "''o'clock'".toList, c ≠ '\'') ∧ quoted "''o'clock'".toList = "'''''o''clock'''".toList ∧
      ∀ m, formatDate "'''''o''clock'''".toList m = .ok "''o'clock'".toList := by
  have h : ∃ c ∈ "''o'clock'".toList, c ≠ '\'' := ⟨'o', by decide, by decide⟩
  have hquoted : quoted "''o'clock'".toList = "'''''o''clock'''".toList := rfl
  exact ⟨h, hquoted, fun m => hquoted ▸ quoting_round_trips.1 _ m h⟩

end MessageArchive.Calendar.Pattern
