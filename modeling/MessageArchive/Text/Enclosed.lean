import MessageArchive.Text.Blank

set_option autoImplicit false

/-! # Text between two delimiters

A placeholder is an opening character, a body, and the first closing character after the
opener. `cut` finds the leftmost placeholder of a text; `Pieces.ofText` cuts a whole text into
the placeholders it holds and the text between them. An opener inside a body is part of the
body, and a closer that no opener precedes is plain text.
-/

namespace MessageArchive.Text

/-- The text before the first `c` and the text after it. -/
def splitFirst (c : Char) : List Char → Option (List Char × List Char)
  | [] => none
  | x :: s =>
      if x = c then some ([], s)
      else (splitFirst c s).map fun (before, after) => (x :: before, after)

theorem splitFirst_eq_none_iff {c : Char} {s : List Char} : splitFirst c s = none ↔ c ∉ s := by
  induction s with
  | nil => simp [splitFirst]
  | cons x s ih =>
      by_cases h : x = c
      · simp [splitFirst, h]
      · simp [splitFirst, h, ih, Ne.symm h]

theorem splitFirst_eq_some_iff {c : Char} {s before after : List Char} :
    splitFirst c s = some (before, after) ↔ s = before ++ c :: after ∧ c ∉ before := by
  induction s generalizing before with
  | nil => simp [splitFirst]
  | cons x s ih =>
      by_cases h : x = c
      · subst h
        cases before with
        | nil => simp [splitFirst]
        | cons y before =>
            simp only [splitFirst, if_true, Option.some.injEq, Prod.mk.injEq, List.cons_append,
              List.cons.injEq, List.mem_cons, not_or]
            constructor
            · rintro ⟨h, -⟩
              exact absurd h (by simp)
            · rintro ⟨⟨rfl, -⟩, hne, -⟩
              exact absurd rfl hne
      · simp only [splitFirst, h, if_false, Option.map_eq_some_iff, Prod.mk.injEq, Prod.exists]
        constructor
        · rintro ⟨b, a, hs, rfl, rfl⟩
          obtain ⟨rfl, hb⟩ := ih.1 hs
          exact ⟨rfl, by simp [hb, Ne.symm h]⟩
        · rintro ⟨hs, hb⟩
          cases before with
          | nil => exact absurd (List.cons.inj hs).1 h
          | cons y b =>
              obtain ⟨rfl, rfl⟩ := List.cons.inj hs
              exact ⟨b, after, ih.2 ⟨rfl, fun hm => hb (List.mem_cons_of_mem _ hm)⟩, rfl, rfl⟩

/-- The text before the last `c` and the text after it. -/
def splitLast (c : Char) (s : List Char) : Option (List Char × List Char) :=
  (splitFirst c s.reverse).map fun (after, before) => (before.reverse, after.reverse)

theorem splitLast_eq_none_iff {c : Char} {s : List Char} : splitLast c s = none ↔ c ∉ s := by
  simp [splitLast, splitFirst_eq_none_iff]

theorem splitLast_eq_some_iff {c : Char} {s before after : List Char} :
    splitLast c s = some (before, after) ↔ s = before ++ c :: after ∧ c ∉ after := by
  simp only [splitLast, Option.map_eq_some_iff, Prod.exists, Prod.mk.injEq]
  constructor
  · rintro ⟨a, b, hs, rfl, rfl⟩
    obtain ⟨hs, ha⟩ := splitFirst_eq_some_iff.1 hs
    refine ⟨?_, by simpa using ha⟩
    have := congrArg List.reverse hs
    simpa using this
  · rintro ⟨rfl, ha⟩
    exact ⟨after.reverse, before.reverse,
      splitFirst_eq_some_iff.2 ⟨by simp, by simpa using ha⟩, by simp, by simp⟩

/-! ## The leftmost placeholder -/

/-- What a text begins with, up to and including its leftmost placeholder. -/
inductive Cut where
  /-- There is no opener. -/
  | absent
  /-- There is an opener, and no closer after the first one. -/
  | unclosed
  /-- The text is `before`, the opener, `body`, the closer, `after`. -/
  | found (before body after : List Char)
  deriving DecidableEq, Repr

/-- Looks for the first opener and the first closer after it. -/
def cut (opener closer : Char) (s : List Char) : Cut :=
  match splitFirst opener s with
  | none => .absent
  | some (before, rest) =>
      match splitFirst closer rest with
      | none => .unclosed
      | some (body, after) => .found before body after

theorem cut_eq_absent_iff {opener closer : Char} {s : List Char} :
    cut opener closer s = .absent ↔ opener ∉ s := by
  rw [← splitFirst_eq_none_iff, cut]
  split
  · simp_all
  · split <;> simp_all

theorem cut_eq_unclosed_iff {opener closer : Char} {s : List Char} :
    cut opener closer s = .unclosed ↔
      ∃ before rest, s = before ++ opener :: rest ∧ opener ∉ before ∧ closer ∉ rest := by
  rw [cut]
  split
  next h =>
    simp only [reduceCtorEq, false_iff, not_exists]
    rintro before rest ⟨rfl, -, -⟩
    exact absurd (splitFirst_eq_none_iff.1 h) (by simp)
  next before rest h =>
    obtain ⟨hs, hb⟩ := splitFirst_eq_some_iff.1 h
    have key : ∀ b r, s = b ++ opener :: r → opener ∉ b → r = rest := by
      intro b r h1 h2
      have := h ▸ splitFirst_eq_some_iff.2 ⟨h1, h2⟩
      simp only [Option.some.injEq, Prod.mk.injEq] at this
      exact this.2.symm
    split
    next hc =>
      simp only [true_iff]
      exact ⟨before, rest, hs, hb, splitFirst_eq_none_iff.1 hc⟩
    next body after hc =>
      simp only [reduceCtorEq, false_iff, not_exists]
      rintro b r ⟨h1, h2, h3⟩
      obtain rfl := key b r h1 h2
      rw [splitFirst_eq_none_iff.2 h3] at hc
      exact absurd hc (by simp)

theorem cut_eq_found_iff {opener closer : Char} {s before body after : List Char} :
    cut opener closer s = .found before body after ↔
      s = before ++ opener :: (body ++ closer :: after) ∧ opener ∉ before ∧ closer ∉ body := by
  rw [cut]
  constructor
  · intro h
    split at h
    · exact absurd h (by simp)
    next b r hcut =>
      split at h
      · exact absurd h (by simp)
      next bd a hclose =>
        simp only [Cut.found.injEq] at h
        obtain ⟨rfl, rfl, rfl⟩ := h
        obtain ⟨rfl, hb⟩ := splitFirst_eq_some_iff.1 hcut
        obtain ⟨rfl, hc⟩ := splitFirst_eq_some_iff.1 hclose
        exact ⟨rfl, hb, hc⟩
  · rintro ⟨hs, hb, hc⟩
    rw [splitFirst_eq_some_iff.2 ⟨hs, hb⟩]
    simp [splitFirst_eq_some_iff.2 ⟨rfl, hc⟩]

/-- What follows a placeholder is shorter than the text it was found in. -/
theorem length_after_lt_of_cut {opener closer : Char} {s before body after : List Char}
    (h : cut opener closer s = .found before body after) : after.length < s.length := by
  obtain ⟨rfl, -, -⟩ := cut_eq_found_iff.1 h
  simp
  omega

/-! ## All placeholders of a text -/

/-- A text cut at its placeholders, from left to right. -/
inductive Pieces where
  /-- No placeholder is left. -/
  | last (text : List Char)
  /-- The next opener is never closed. -/
  | unclosed
  /-- A stretch of text, the body of a placeholder, and what follows. -/
  | more (text body : List Char) (rest : Pieces)
  deriving DecidableEq, Repr

/-- Cuts a text at all its placeholders. -/
def Pieces.ofText (opener closer : Char) (s : List Char) : Pieces :=
  match _found : cut opener closer s with
  | .absent => .last s
  | .unclosed => .unclosed
  | .found before body after => .more before body (Pieces.ofText opener closer after)
termination_by s.length
decreasing_by exact length_after_lt_of_cut _found

theorem Pieces.ofText_of_absent {opener closer : Char} {s : List Char}
    (h : cut opener closer s = .absent) : Pieces.ofText opener closer s = .last s := by
  rw [Pieces.ofText]
  split <;> simp_all

theorem Pieces.ofText_of_unclosed {opener closer : Char} {s : List Char}
    (h : cut opener closer s = .unclosed) : Pieces.ofText opener closer s = .unclosed := by
  rw [Pieces.ofText]
  split <;> simp_all

theorem Pieces.ofText_of_found {opener closer : Char} {s before body after : List Char}
    (h : cut opener closer s = .found before body after) :
    Pieces.ofText opener closer s = .more before body (Pieces.ofText opener closer after) := by
  rw [Pieces.ofText]
  split <;> simp_all

/-! ## Positions in bytes -/

/-- The number of bytes of the text in UTF-8. -/
def utf8Length : List Char → Nat
  | [] => 0
  | c :: s => c.utf8Size + utf8Length s

@[simp] theorem utf8Length_cons (c : Char) (s : List Char) :
    utf8Length (c :: s) = c.utf8Size + utf8Length s := rfl

/-- A placeholder found in a text: where it starts, where it ends, delimiters included, both
counted in bytes of UTF-8, and its body without the blanks at either end. -/
structure Occurrence where
  start : Nat
  stop : Nat
  inner : String
  deriving DecidableEq, Repr

/-- Locates the first opener and the first closer after it. The answer is `none` when there is no
opener, and the error is the closer that is missing. -/
def findEnclosed (s : String) (opener closer : Char) : Except Char (Option Occurrence) :=
  match cut opener closer s.toList with
  | .absent => .ok none
  | .unclosed => .error closer
  | .found before body _ =>
      let start := utf8Length before
      .ok (some
        { start
          stop := start + opener.utf8Size + utf8Length body + closer.utf8Size
          inner := String.ofList (trim body) })

/-- The body of the first placeholder, without the blanks at either end. -/
def extract (s : String) (opener closer : Char) : Except Char (Option String) :=
  (findEnclosed s opener closer).map fun found => found.map Occurrence.inner

end MessageArchive.Text
