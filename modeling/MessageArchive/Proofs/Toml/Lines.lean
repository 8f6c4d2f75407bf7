import Mathlib.Data.List.Basic
import MessageArchive.Proofs.Text.Digits
import MessageArchive.Settings.File

set_option autoImplicit false

/-! # TOML texts of plain lines

A document that has nothing but lines `key = value`, each with another key, is read as the table of
its keys and values (`read?_entries`). What is asked of a line is that its key needs no quotes and
that its value is read from the text it is written as, up to the end of the line (`ReadsAs`). Texts
in double quotes and numbers in decimal are read so (`readsAs_quote`, `readsAs_digits`).
-/

namespace MessageArchive.Toml

open MessageArchive.Text

/-- A text at the end of a line is read as a value, whatever the lines behind it are. -/
def ReadsAs (text : List Char) (v : Value) : Prop :=
  ∀ rest, value? depthLimit (skipSpace (text ++ '\n' :: rest)) = some (v, '\n' :: rest)

theorem skipSpace_cons {c : Char} (h : isSpace c = false) (rest : List Char) :
    skipSpace (c :: rest) = c :: rest :=
  List.dropWhile_cons_of_neg (by simp [h])

/-! ## Texts in quotes -/

/-- What is written for a character does not begin with a quote. -/
theorem escaped_head (c : Char) : ∃ d more, escaped c = d :: more ∧ d ≠ '"' := by
  rw [escaped]
  split
  · exact ⟨'\\', [c], rfl, by decide⟩
  next hplain =>
    rw [not_or] at hplain
    split
    · exact ⟨c, [], rfl, hplain.1⟩
    · exact ⟨'\\', _, rfl, by decide⟩

theorem length_le_flatMap_escaped (s : List Char) : s.length ≤ (s.flatMap escaped).length := by
  induction s with
  | nil => exact Nat.le_refl 0
  | cons c s ih =>
      obtain ⟨d, more, hc, -⟩ := escaped_head c
      rw [List.flatMap_cons, hc, List.length_append, List.length_cons, List.length_cons]
      omega

/-- A text that is written in quotes is not taken for one in three quotes. -/
theorem string?_quote (s : String) (rest : List Char) :
    string? (quote s ++ '\n' :: rest) = some (s, '\n' :: rest) := by
  have hquote :
      quote s ++ '\n' :: rest = '"' :: (s.toList.flatMap escaped ++ '"' :: '\n' :: rest) := by
    simp [quote]
  have hbody : basic ((s.toList.flatMap escaped ++ '"' :: '\n' :: rest).length + 1)
      (s.toList.flatMap escaped ++ '"' :: '\n' :: rest) = some (s.toList, '\n' :: rest) := by
    have hlength := length_le_flatMap_escaped s.toList
    refine basic_flatMap_escaped s.toList ('\n' :: rest) ?_
    rw [List.length_append]
    omega
  rw [hquote]
  unfold string?
  split
  next tail heq =>
    -- Either the text is empty, and the line ends behind its quotes, or its first character is
    -- written without a quote in front.
    rw [List.cons.injEq] at heq
    cases hs : s.toList with
    | nil => simp [hs] at heq
    | cons c more =>
        obtain ⟨d, front, hc, hd⟩ := escaped_head c
        rw [hs, List.flatMap_cons, hc] at heq
        exact absurd (List.cons.inj heq.2).1 hd
  next tail hno heq =>
    obtain rfl := (List.cons.inj heq).2
    rw [hbody, Option.map_some]
    dsimp only
    rw [String.ofList_toList]
  next heq => simp at heq
  next heq => simp at heq
  next hno _ _ => exact absurd rfl (hno _)

theorem readsAs_quote (s : String) : ReadsAs (quote s) (.string s) := by
  intro rest
  have hquote :
      quote s ++ '\n' :: rest = '"' :: (s.toList.flatMap escaped ++ ['"'] ++ '\n' :: rest) := rfl
  have hread := string?_quote s rest
  rw [hquote] at hread ⊢
  rw [skipSpace_cons rfl, value?]
  · rw [if_pos (Or.inl rfl), hread]
    rfl
  all_goals simp

/-! ## Numbers -/

variable {ds rest : List Char}

/-- Behind digits at the end of a line comes the end of the line and nothing else. -/
theorem digits_append_ne (hds : ∀ c ∈ ds, c.isDigit = true) (front : List Char) {c : Char}
    (hfront : front.all Char.isDigit = true) (hc : c.isDigit = false) (hline : c ≠ '\n')
    (more : List Char) : ds ++ '\n' :: rest ≠ front ++ c :: more := by
  intro h
  have hdrop := congrArg (List.dropWhile Char.isDigit) h
  rw [List.dropWhile_append_of_pos hds, List.dropWhile_append_of_pos (List.all_eq_true.1 hfront),
    List.dropWhile_cons_of_neg (by decide), List.dropWhile_cons_of_neg (by simp [hc])] at hdrop
  exact hline (List.cons.inj hdrop).1.symm

theorem startsDay_digits (hds : ∀ c ∈ ds, c.isDigit = true) :
    startsDay (ds ++ '\n' :: rest) = false := by
  unfold startsDay
  split
  next a b c d more heq =>
    rw [← Bool.not_eq_true]
    intro hall
    simp only [Bool.and_eq_true] at hall
    have hfront : [a, b, c, d].all Char.isDigit = true := by simp [hall]
    exact digits_append_ne hds [a, b, c, d] hfront (by decide) (by decide) more heq
  next => rfl

theorem startsTime_digits (hds : ∀ c ∈ ds, c.isDigit = true) :
    startsTime (ds ++ '\n' :: rest) = false := by
  unfold startsTime
  split
  next a b more heq =>
    rw [← Bool.not_eq_true]
    intro hall
    simp only [Bool.and_eq_true] at hall
    have hfront : [a, b].all Char.isDigit = true := by simp [hall]
    exact digits_append_ne hds [a, b] hfront (by decide) (by decide) more heq
  next => rfl

/-- Digits begin with no sign, with no letter of another base, and with no word. -/
theorem number?_digits (hds : ∀ c ∈ ds, c.isDigit = true) :
    number? (ds ++ '\n' :: rest) = decimal? false (ds ++ '\n' :: rest) := by
  unfold number?
  split
  next more heq =>
    exact absurd heq (digits_append_ne hds ['0'] rfl (by decide) (by decide) more)
  next more heq =>
    exact absurd heq (digits_append_ne hds ['0'] rfl (by decide) (by decide) more)
  next more heq =>
    exact absurd heq (digits_append_ne hds ['0'] rfl (by decide) (by decide) more)
  next more heq => exact absurd heq (digits_append_ne hds [] rfl (by decide) (by decide) more)
  next more heq => exact absurd heq (digits_append_ne hds [] rfl (by decide) (by decide) more)
  next =>
    unfold signed?
    split
    next heq => exact absurd heq (digits_append_ne hds [] rfl (by decide) (by decide) _)
    next heq => exact absurd heq (digits_append_ne hds [] rfl (by decide) (by decide) _)
    next => rfl

theorem moreDigits_digits (hds : ∀ c ∈ ds, c.isDigit = true) :
    moreDigits Char.isDigit (ds ++ '\n' :: rest) = some (ds, '\n' :: rest) := by
  induction ds with
  | nil => 
      rw [List.nil_append, moreDigits]
      · rfl
      all_goals simp
  | cons d ds ih =>
      have hd : d.isDigit = true := hds d List.mem_cons_self
      have hne : d ≠ '_' := by
        rintro rfl
        cases hd
      rw [List.cons_append, moreDigits]
      · rw [if_pos hd, ih fun c hc => hds c (List.mem_cons_of_mem d hc)]
        rfl
      · intro c more hcons
        exact absurd hcons hne

/-- Only the number zero is written with a zero in front. -/
theorem digits_head {n : Nat} (h : 0 < n) : ∃ d ds, digits n = d :: ds ∧ d ≠ '0' := by
  induction n using Nat.strongRecOn with
  | _ n ih =>
      by_cases hn : n < 10
      · have hdigit : ∀ m < 10, 0 < m → m.digitChar ≠ '0' := by decide
        exact ⟨n.digitChar, [], Nat.toDigits_of_lt_base hn, hdigit n hn h⟩
      · obtain ⟨d, ds, hds, hd⟩ := ih (n / 10) (by omega) (by omega)
        refine ⟨d, ds ++ [(n % 10).digitChar], ?_, hd⟩
        rw [← List.cons_append, ← hds]
        exact Nat.toDigits_of_base_le (by decide) (by omega)

theorem wholeDigits?_digits (n : Nat) (rest : List Char) :
    wholeDigits? (digits n ++ '\n' :: rest) = some (digits n, '\n' :: rest) := by
  by_cases hn : n = 0
  · rw [hn]
    rfl
  · obtain ⟨d, ds, hds, hd⟩ := digits_head (Nat.pos_of_ne_zero hn)
    have hdigits : ∀ c ∈ d :: ds, c.isDigit = true := fun c hc =>
      isDigit_of_mem_digits (n := n) (hds ▸ hc)
    rw [hds, List.cons_append, wholeDigits?, digits?, if_pos (hdigits d List.mem_cons_self),
      moreDigits_digits fun c hc => hdigits c (List.mem_cons_of_mem d hc)]
    · rfl
    · intro more hcons
      exact absurd (List.cons.inj hcons).1 hd

theorem numberOf_digits (n : Nat) : numberOf 10 (digits n) = n := by
  have hvalue : ∀ c ∈ digits n, (hexValue? c).getD 0 = c.toNat - '0'.toNat := by
    intro c hc
    rw [hexValue?, if_pos (toNat_digit (isDigit_of_mem_digits hc))]
    rfl
  calc numberOf 10 (digits n) = Nat.ofDigitChars 10 (digits n) 0 := by
        rw [numberOf, Nat.ofDigitChars]
        exact List.foldl_ext _ _ _ fun m c hc => by rw [hvalue c hc]
    _ = n := ofDigitChars_digits n

theorem numberOrDate?_digits {n : Nat} (h : n ≤ 9223372036854775807) (rest : List Char) :
    numberOrDate? (digits n ++ '\n' :: rest) = some (.integer n, '\n' :: rest) := by
  have hdigits : ∀ c ∈ digits n, c.isDigit = true := fun c hc => isDigit_of_mem_digits hc
  have hfits : integer? (n : Int) = some (.integer n) := by
    rw [integer?, if_pos ⟨by omega, by omega⟩]
  have hplain : isFloatMark ('\n' :: rest) = false := rfl
  rw [numberOrDate?, startsDay_digits hdigits, startsTime_digits hdigits, number?_digits hdigits,
    decimal?, wholeDigits?_digits, Option.bind_some]
  dsimp only
  simp only [hplain, numberOf_digits, Bool.false_eq_true, if_false, hfits, Option.map_some]

/-- A number in decimal is read as the integer, if it fits into 64 bits. -/
theorem readsAs_digits {n : Nat} (h : n ≤ 9223372036854775807) :
    ReadsAs (digits n) (.integer n) := by
  intro rest
  have hread := numberOrDate?_digits h rest
  obtain ⟨d, ds, hds⟩ := List.exists_cons_of_ne_nil (digits_ne_nil n)
  have hd : d.isDigit = true := isDigit_of_mem_digits (n := n) (hds ▸ List.mem_cons_self)
  have hne : ∀ c : Char, c.isDigit = false → d ≠ c := by
    rintro c hc rfl
    rw [hd] at hc
    cases hc
  have hspace : isSpace d = false := by
    rw [isSpace, Bool.or_eq_false_iff, beq_eq_false_iff_ne, beq_eq_false_iff_ne]
    exact ⟨hne ' ' rfl, hne '\t' rfl⟩
  rw [hds, List.cons_append] at hread ⊢
  rw [skipSpace_cons hspace, value?]
  · rw [if_neg (by simp [hne]), if_neg (by simp [hne])]
    exact hread
  all_goals simp [hne]

/-! ## Keys without quotes -/

/-- A name that may stand without quotes. -/
structure IsBareKey (key : String) : Prop where
  nonempty : key.toList ≠ []
  bare : key.toList.all isBare = true

theorem IsBareKey.isBare_of_mem {key : String} (h : IsBareKey key) {c : Char}
    (hc : c ∈ key.toList) : isBare c = true :=
  List.all_eq_true.1 h.bare c hc

theorem IsBareKey.head {key : String} (h : IsBareKey key) :
    ∃ c more, key.toList = c :: more ∧ isBare c = true := by
  obtain ⟨c, more, hkey⟩ := List.exists_cons_of_ne_nil h.nonempty
  exact ⟨c, more, hkey, h.isBare_of_mem (hkey ▸ List.mem_cons_self)⟩

theorem ne_of_isBare {c d : Char} (h : isBare c = true) (hd : isBare d = false) : c ≠ d := by
  rintro rfl
  rw [h] at hd
  cases hd

theorem isSpace_of_isBare {c : Char} (h : isBare c = true) : isSpace c = false := by
  rw [isSpace, Bool.or_eq_false_iff, beq_eq_false_iff_ne, beq_eq_false_iff_ne]
  exact ⟨ne_of_isBare h (by decide), ne_of_isBare h (by decide)⟩

theorem name?_bare {key : String} (h : IsBareKey key) (rest : List Char) :
    name? (key.toList ++ ' ' :: rest) = some (key, ' ' :: rest) := by
  obtain ⟨c, more, hkey, hc⟩ := h.head
  have hmore : ∀ d ∈ more, isBare d = true := fun d hd =>
    h.isBare_of_mem (hkey ▸ List.mem_cons_of_mem c hd)
  have hname : String.ofList (c :: more) = key := by rw [← hkey, String.ofList_toList]
  rw [hkey, List.cons_append, name?]
  · rw [if_pos hc, List.takeWhile_append_of_pos hmore, List.dropWhile_append_of_pos hmore,
      List.takeWhile_cons_of_neg (by decide), List.dropWhile_cons_of_neg (by decide),
      List.append_nil, hname]
  · exact ne_of_isBare hc (by decide)
  · exact ne_of_isBare hc (by decide)

theorem key?_bare {key : String} (h : IsBareKey key) (rest : List Char) :
    key? (key.toList ++ ' ' :: '=' :: rest) = some ([key], '=' :: rest) := by
  obtain ⟨c, more, hkey, hc⟩ := h.head
  have hstart :
      skipSpace (key.toList ++ ' ' :: '=' :: rest) = key.toList ++ ' ' :: '=' :: rest := by
    rw [hkey, List.cons_append, skipSpace_cons (isSpace_of_isBare hc)]
  have hequals : skipSpace (' ' :: '=' :: rest) = '=' :: rest := rfl
  rw [key?, keyLimit, names?, hstart, name?_bare h, Option.bind_some]
  dsimp only
  rw [hequals]
  rfl

/-! ## Lines -/

/-- A line of a document: a key that needs no quotes, and a text that is read as its value. -/
structure Entry where
  key : String
  text : List Char
  value : Value
  bare : IsBareKey key
  reads : ReadsAs text value

namespace Entry

/-- What is written on the line. -/
def line (e : Entry) : List Char := Settings.line e.key e.text

/-- What is read from the line. -/
def member (e : Entry) : String × Value := (e.key, e.value)

end Entry

theorem Entry.line_head (e : Entry) : ∃ c tail, e.line = c :: tail ∧ isBare c = true := by
  obtain ⟨c, more, hkey, hc⟩ := e.bare.head
  exact ⟨c, more ++ ([' ', '=', ' '] ++ e.text ++ ['\n']),
    by simp [Entry.line, Settings.line, hkey], hc⟩

theorem newline?_bare {c : Char} (h : isBare c = true) (rest : List Char) :
    newline? (c :: rest) = none := by
  unfold newline?
  split
  next heq => exact absurd (List.cons.inj heq).1 (ne_of_isBare h (by decide))
  next heq => exact absurd (List.cons.inj heq).1 (ne_of_isBare h (by decide))
  next => rfl

/-- A key that is not in a table yet is set behind the others. -/
theorem update_of_new {key : String} {value : Value} {members : Members}
    {f : Option Value → Option Value} (hf : f none = some value)
    (h : key ∉ members.map Prod.fst) : update key f members = some (members ++ [(key, value)]) := by
  induction members with
  | nil =>
      rw [update, hf]
      rfl
  | cons m rest ih =>
      obtain ⟨k, v⟩ := m
      rw [List.map_cons, List.mem_cons, not_or] at h
      rw [update, if_neg (Ne.symm h.1), ih h.2]
      rfl

theorem readPair_entry (e : Entry) {members : Members} (h : e.key ∉ members.map Prod.fst)
    (rest : List Char) :
    Document.readPair ⟨members, []⟩ (e.line ++ rest) =
      some (⟨members ++ [e.member], []⟩, '\n' :: rest) := by
  have hline : e.line ++ rest = e.key.toList ++ ' ' :: '=' :: ' ' :: (e.text ++ '\n' :: rest) := by
    simp [Entry.line, Settings.line]
  have hvalue : value? depthLimit (skipSpace (' ' :: (e.text ++ '\n' :: rest))) =
      some (e.value, '\n' :: rest) := e.reads rest
  have hset : within (setPath [e.key] e.value) [] members = some (members ++ [e.member]) :=
    update_of_new rfl h
  rw [hline, Document.readPair, key?_bare e.bare]
  simp only [Option.bind_some, hvalue, hset, Option.map_some]

theorem readLine_entry (e : Entry) {members : Members} (h : e.key ∉ members.map Prod.fst)
    (rest : List Char) :
    Document.readLine ⟨members, []⟩ (e.line ++ rest) =
      some (⟨members ++ [e.member], []⟩, '\n' :: rest) := by
  obtain ⟨c, tail, hline, hc⟩ := e.line_head
  rw [← readPair_entry e h rest, hline, List.cons_append, Document.readLine]
  intro tail heq
  exact ne_of_isBare hc (by decide) (List.cons.inj heq).1

/-- Lines are read one after the other, each into the table that those before it have made. -/
theorem readLines_entries {entries : List Entry} {members : Members} {more : Nat}
    (hmore : entries.length < more)
    (h : (members.map Prod.fst ++ entries.map Entry.key).Nodup) :
    Document.readLines more ⟨members, []⟩ (entries.flatMap Entry.line) =
      some ⟨members ++ entries.map Entry.member, []⟩ := by
  induction entries generalizing members more with
  | nil =>
      obtain ⟨more, rfl⟩ := Nat.exists_eq_add_one_of_ne_zero (Nat.ne_of_gt hmore)
      simp [Document.readLines, skipSpace]
  | cons e entries ih =>
      have hpos : 0 < more := Nat.zero_lt_of_lt hmore
      obtain ⟨more, rfl⟩ := Nat.exists_eq_add_one_of_ne_zero (Nat.ne_of_gt hpos)
      have hlater : ((members ++ [e.member]).map Prod.fst ++ entries.map Entry.key).Nodup := by
        simpa [Entry.member] using h
      have hnew : e.key ∉ members.map Prod.fst := fun hmem =>
        (List.nodup_append.1 h).2.2 e.key hmem e.key List.mem_cons_self rfl
      have hread := readLine_entry e hnew (entries.flatMap Entry.line)
      have hend :
          lineEnd? ('\n' :: entries.flatMap Entry.line) = some (entries.flatMap Entry.line) := rfl
      have hrest := ih (by simpa using hmore) hlater
      obtain ⟨c, tail, hline, hc⟩ := e.line_head
      rw [hline, List.cons_append] at hread
      rw [List.flatMap_cons, hline, List.cons_append, Document.readLines,
        skipSpace_cons (isSpace_of_isBare hc)]
      -- The line is not blank, and its first character does not begin a comment.
      split
      next heq => cases heq
      next heq => exact absurd (List.cons.inj heq).1 (ne_of_isBare hc (by decide))
      next =>
        rw [newline?_bare hc]
        simp only [hread, Option.bind_some, hend, hrest, List.map_cons, List.append_assoc,
          List.singleton_append]

theorem length_le_flatMap_line (entries : List Entry) :
    entries.length ≤ (entries.flatMap Entry.line).length := by
  induction entries with
  | nil => exact Nat.le_refl 0
  | cons e entries ih =>
      obtain ⟨c, tail, hline, -⟩ := e.line_head
      rw [List.flatMap_cons, hline, List.length_append, List.length_cons, List.length_cons]
      omega

/-- Plain lines begin with no mark that says that they are Unicode. -/
theorem withoutMark_entries (entries : List Entry) :
    withoutMark (entries.flatMap Entry.line) = entries.flatMap Entry.line := by
  cases entries with
  | nil => rfl
  | cons e entries =>
      obtain ⟨c, tail, hline, hc⟩ := e.line_head
      rw [List.flatMap_cons, hline, List.cons_append, withoutMark]
      intro rest heq
      exact ne_of_isBare hc (by decide) (List.cons.inj heq).1

/-- **A document of plain lines, each with another key, is the table of its keys and values.** -/
theorem read?_entries {entries : List Entry} (h : (entries.map Entry.key).Nodup) :
    read? (String.ofList (entries.flatMap Entry.line)) = some (entries.map Entry.member) := by
  have hlength := length_le_flatMap_line entries
  have hread : Document.readLines ((entries.flatMap Entry.line).length + 1) {}
      (entries.flatMap Entry.line) = some ⟨entries.map Entry.member, []⟩ :=
    readLines_entries (Nat.lt_succ_of_le hlength) h
  rw [read?, String.toList_ofList, withoutMark_entries]
  exact congrArg (Option.map Document.members) hread

end MessageArchive.Toml
