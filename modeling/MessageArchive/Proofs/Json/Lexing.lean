import MessageArchive.Proofs.Json.Grammar

set_option autoImplicit false

/-! # The tokens of a text

What the grammar of JSON calls a string, a number or a word is read as one token, and nothing is
read as part of it that follows (`IsString.lexes`, `IsNumber.lexes`). Only a number depends on what
follows at all: more digits, a point or an exponent would belong to it (`Ends`). So the tokens of a
text that is put together with punctuation and gaps are those of its pieces (`Lexes.punctuated`,
`Lexes.padded`).
-/

namespace MessageArchive.Json

open MessageArchive.Text

/-! ## Strings -/

theorem hexValue?_of_isHexDigit {c : Char} {n : Nat} (h : IsHexDigit c n) :
    hexValue? c = some n := by
  have hlower : ∀ m : Fin 16, ("0123456789abcdef".toList[m.val]?.bind hexValue?) = some m.val := by
    decide
  have hupper : ∀ m : Fin 16, ("0123456789ABCDEF".toList[m.val]?.bind hexValue?) = some m.val := by
    decide
  obtain h | h := h
  · have hlt : n < 16 := (List.getElem?_eq_some_iff.1 h).1
    have hvalue : "0123456789abcdef".toList[n]?.bind hexValue? = some n := hlower ⟨n, hlt⟩
    rwa [h, Option.bind_some] at hvalue
  · have hlt : n < 16 := (List.getElem?_eq_some_iff.1 h).1
    have hvalue : "0123456789ABCDEF".toList[n]?.bind hexValue? = some n := hupper ⟨n, hlt⟩
    rwa [h, Option.bind_some] at hvalue

theorem unescape?_of_mem {e c : Char} (h : (e, c) ∈ escapes) : unescape? e = some c ∧ e ≠ 'u' := by
  have hall : ∀ p ∈ escapes, unescape? p.1 = some p.2 ∧ p.1 ≠ 'u' := by decide
  exact hall _ h

/-- A string is read up to its closing quote. -/
theorem stringParts_append {body : List Char} {parts : List StringPart} (h : HasParts body parts)
    (rest : List Char) : stringParts (body ++ '"' :: rest) = some (parts, rest) := by
  induction h with
  | nil => rfl
  | @plain c s parts hcontrol hquote hbackslash _ ih =>
      have hnot : ¬(c.toNat < 0x20 ∨ c = '\\') := by
        rintro (hlt | heq)
        · omega
        · exact hbackslash heq
      rw [List.cons_append, stringParts.eq_5 _ _ hquote, if_neg hnot, ih, Option.map_some]
      · exact fun _ _ _ _ _ heq _ => hbackslash heq
      · exact fun _ _ heq _ => hbackslash heq
  | @escape e c s parts hescaped _ ih =>
      obtain ⟨hc, hu⟩ := unescape?_of_mem hescaped
      rw [List.cons_append, List.cons_append, stringParts, hc, ih]
      · rfl
      · exact fun _ _ _ _ _ heq _ => hu heq
  | @unit a b c d i j k l s parts ha hb hc hd _ ih =>
      have hnumber : hex4? a b c d = some (((i * 16 + j) * 16 + k) * 16 + l) := by
        rw [hex4?, hexValue?_of_isHexDigit ha, hexValue?_of_isHexDigit hb,
          hexValue?_of_isHexDigit hc, hexValue?_of_isHexDigit hd]
      simp only [List.cons_append, stringParts, hnumber, ih, Option.map_some]

/-- The number of a character is no half of a surrogate pair. -/
theorem not_surrogate (c : Char) : ¬(0xD800 ≤ c.toNat ∧ c.toNat < 0xE000) := by
  have hvalid : c.toNat < 0xD800 ∨ 0xDFFF < c.toNat ∧ c.toNat < 0x110000 := c.valid
  omega

/-- The parts of a string give the text that they make up. -/
theorem textOfParts_of_encodes {parts : List StringPart} {s : List Char} (h : Encodes parts s) :
    textOfParts parts = some s := by
  induction h with
  | nil => rfl
  | char c _ ih => rw [textOfParts, ih, Option.map_some]
  | @unit n c parts s hvalue _ ih =>
      subst hvalue
      have hnot := not_surrogate c
      have hchar : Char.ofNat c.toNat = c := Char.ofNat_toNat c
      unfold textOfParts
      split
      · simp_all
      · simp_all
      next high low rest heq => 
        obtain ⟨rfl, rfl⟩ : c.toNat = high ∧ parts = .unit low :: rest := by simpa using heq
        rw [if_neg (by omega), if_neg (by omega), ih, hchar, Option.map_some]
      next n rest _ heq =>
        obtain ⟨rfl, rfl⟩ : c.toNat = n ∧ parts = rest := by simpa using heq
        rw [if_neg hnot, ih, hchar, Option.map_some]
  | @pair high low c parts s hhigh hlow hvalue _ ih =>
      have hchar : joinSurrogates high low = c := by
        rw [joinSurrogates, ← hvalue, Char.ofNat_toNat]
      rw [textOfParts, if_pos hhigh, if_pos hlow, ih, hchar, Option.map_some]

/-! ## Numbers -/

/-- The text does not begin with a digit. -/
def NoDigit (s : List Char) : Prop := ∀ c, s.head? = some c → c.isDigit = false

/-- The text does not begin with a character that could continue a number. -/
structure Ends (s : List Char) : Prop where
  noDigit : NoDigit s
  noPoint : s.head? ≠ some '.'
  noExponent : s.head? ≠ some 'e' ∧ s.head? ≠ some 'E'

theorem ne_of_isDigit {c d : Char} (hc : c.isDigit = true) (hd : d.isDigit = false) : c ≠ d := by
  rintro rfl
  rw [hc] at hd
  cases hd

theorem noDigit_cons {c : Char} (h : c.isDigit = false) (s : List Char) : NoDigit (c :: s) := by
  intro d hd
  cases hd
  exact h

theorem afterDigits_append {digits rest : List Char} (h : IsDigits digits) (hrest : NoDigit rest) :
    afterDigits (digits ++ rest) = some rest := by
  obtain ⟨hne, hall⟩ := h
  cases digits with
  | nil => exact absurd rfl hne
  | cons c digits =>
      have hdrop : rest.dropWhile Char.isDigit = rest := by
        cases rest with
        | nil => rfl
        | cons d rest => rw [List.dropWhile_cons_of_neg (by simp [hrest d rfl])]
      rw [List.cons_append, afterDigits, if_pos (hall c List.mem_cons_self),
        List.dropWhile_append_of_pos fun d hd => hall d (List.mem_cons_of_mem _ hd), hdrop]

theorem afterWhole_append {whole rest : List Char} (h : IsWhole whole) (hrest : NoDigit rest) :
    afterWhole (whole ++ rest) = some rest := by
  rcases h with rfl | ⟨hdigits, hzero⟩
  · rfl
  · rw [afterWhole, afterDigits_append hdigits hrest]
    obtain ⟨c, whole, rfl⟩ := List.exists_cons_of_ne_nil hdigits.1
    intro r heq
    exact hzero (by rw [(List.cons.inj heq).1]; rfl)

theorem afterExponentSign_append {sign digits : List Char}
    (hsign : sign = [] ∨ sign = ['+'] ∨ sign = ['-']) (h : IsDigits digits) (rest : List Char) :
    afterExponentSign (sign ++ digits ++ rest) = digits ++ rest := by
  rcases hsign with rfl | rfl | rfl
  · obtain ⟨c, digits, rfl⟩ := List.exists_cons_of_ne_nil h.1
    have hdigit : c.isDigit = true := h.2 c List.mem_cons_self
    rw [List.nil_append, List.cons_append, afterExponentSign]
    · exact fun _ heq => ne_of_isDigit hdigit rfl (List.cons.inj heq).1
    · exact fun _ heq => ne_of_isDigit hdigit rfl (List.cons.inj heq).1
  · rfl
  · rfl

theorem afterExponent_append {exponent rest : List Char} (h : IsExponent exponent)
    (hrest : Ends rest) : afterExponent (exponent ++ rest) = some rest := by
  obtain rfl | ⟨e, sign, digits, rfl, he, hsign, hdigits⟩ := h
  · rw [List.nil_append, afterExponent]
    · rintro r rfl
      exact hrest.noExponent.1 rfl
    · rintro r rfl
      exact hrest.noExponent.2 rfl
  · have hdone : afterDigits (afterExponentSign (sign ++ digits ++ rest)) = some rest := by
      rw [afterExponentSign_append hsign hdigits, afterDigits_append hdigits hrest.noDigit]
    rcases he with rfl | rfl
    · exact hdone
    · exact hdone

/-- An exponent begins with no digit and no point, and neither does what follows a number. -/
theorem noDigit_exponent {exponent rest : List Char} (h : IsExponent exponent) (hrest : Ends rest) :
    NoDigit (exponent ++ rest) ∧ (exponent ++ rest).head? ≠ some '.' := by
  obtain rfl | ⟨e, sign, digits, rfl, rfl | rfl, -, -⟩ := h
  · exact ⟨hrest.noDigit, hrest.noPoint⟩
  · exact ⟨noDigit_cons rfl _, by simp⟩
  · exact ⟨noDigit_cons rfl _, by simp⟩

theorem afterFraction_append {fraction rest : List Char} (h : IsFraction fraction)
    (hrest : NoDigit rest ∧ rest.head? ≠ some '.') :
    afterFraction (fraction ++ rest) = some rest := by
  obtain rfl | ⟨digits, rfl, hdigits⟩ := h
  · rw [List.nil_append, afterFraction]
    rintro r rfl
    exact hrest.2 rfl
  · exact afterDigits_append hdigits hrest.1

theorem noDigit_fraction {fraction rest : List Char} (h : IsFraction fraction)
    (hrest : NoDigit rest) : NoDigit (fraction ++ rest) := by
  obtain rfl | ⟨digits, rfl, -⟩ := h
  · exact hrest
  · exact noDigit_cons rfl _

theorem exists_head_of_isWhole {whole : List Char} (h : IsWhole whole) :
    ∃ c s, whole = c :: s ∧ c.isDigit = true := by
  rcases h with rfl | ⟨⟨hne, hall⟩, -⟩
  · exact ⟨_, _, rfl, by decide⟩
  · obtain ⟨c, s, rfl⟩ := List.exists_cons_of_ne_nil hne
    exact ⟨c, s, rfl, hall c List.mem_cons_self⟩

/-- A number is read up to its end. -/
theorem afterNumber_append {s rest : List Char} (h : IsNumber s) (hrest : Ends rest) :
    afterNumber (s ++ rest) = some rest := by
  obtain ⟨sign, whole, fraction, exponent, rfl, hsign, hwhole, hfraction, hexponent⟩ := h
  have hbehind := noDigit_exponent hexponent hrest
  have hunsigned : afterUnsigned (whole ++ (fraction ++ (exponent ++ rest))) = some rest := by
    rw [afterUnsigned, afterWhole_append hwhole (noDigit_fraction hfraction hbehind.1),
      Option.bind_some, afterFraction_append hfraction hbehind, Option.bind_some,
      afterExponent_append hexponent hrest]
  simp only [List.append_assoc]
  rcases hsign with rfl | rfl
  · obtain ⟨c, s, rfl, hdigit⟩ := exists_head_of_isWhole hwhole
    rw [List.nil_append, List.cons_append, afterNumber]
    · exact hunsigned
    · exact fun _ heq => ne_of_isDigit hdigit rfl (List.cons.inj heq).1
  · exact hunsigned

/-! ## Tokens -/

theorem tokens?_gap {gap : List Char} (h : Gap gap) (s : List Char) :
    tokens? (gap ++ s) = tokens? s := by
  induction gap with
  | nil => rfl
  | cons c gap ih =>
      have hspace : ∀ d ∈ [' ', '\t', '\n', '\r'], isSpace d = true := by simp [isSpace]
      rw [List.cons_append, tokens?, if_pos (hspace c (h c List.mem_cons_self))]
      exact ih fun d hd => h d (List.mem_cons_of_mem _ hd)

theorem tokens?_of_token? {c : Char} {s rest : List Char} {t : Token} (hc : isSpace c = false)
    (h : token? (c :: s) = some (t, rest)) : tokens? (c :: s) = (tokens? rest).map (t :: ·) := by
  rw [tokens?, if_neg (by simp [hc])]
  split
  next hnone =>
    rw [h] at hnone
    cases hnone
  next hsome =>
    rw [h] at hsome
    cases hsome
    rfl

/-- What begins other tokens or stands in gaps. -/
def othersBegin : List Char :=
  [' ', '\t', '\n', '\r', 't', 'f', 'n', '"', '[', ']', '\x7b', '\x7d', ',', ':']

/-- No other token begins as a number does. -/
theorem token?_number {c : Char} (hc : c = '-' ∨ c.isDigit = true) (s : List Char) :
    isSpace c = false ∧
      token? (c :: s) = (afterNumber (c :: s)).map fun rest => (.number, rest) := by
  have hothers : ∀ d ∈ othersBegin, d ≠ '-' ∧ d.isDigit = false := by simp [othersBegin]
  have hc : c ∉ othersBegin := by
    intro hmem
    obtain ⟨hminus, hnodigit⟩ := hothers c hmem
    rcases hc with rfl | hdigit
    · exact hminus rfl
    · exact ne_of_isDigit hdigit hnodigit rfl
  simp only [othersBegin, List.mem_cons, List.not_mem_nil, or_false, not_or] at hc
  have hpunctuation : punctuation? c = none := by
    unfold punctuation?
    split <;> simp_all
  refine ⟨by simp [isSpace, hc], ?_⟩
  rw [token?, hpunctuation] <;> simp_all

/-- The text is these tokens, in front of any text that ends it. -/
def Lexes (s : List Char) (ts : List Token) : Prop :=
  ∀ rest, Ends rest → tokens? (s ++ rest) = (tokens? rest).map (ts ++ ·)

theorem IsNumber.lexes {s : List Char} (h : IsNumber s) : Lexes s [.number] := by
  intro rest hrest
  have hnumber := afterNumber_append h hrest
  obtain ⟨sign, whole, fraction, exponent, rfl, hsign, hwhole, -, -⟩ := h
  obtain ⟨d, digits, rfl, hdigit⟩ := exists_head_of_isWhole hwhole
  obtain ⟨c, s, heq, hc⟩ : ∃ c s, sign ++ (d :: digits ++ (fraction ++ exponent)) = c :: s ∧
      (c = '-' ∨ c.isDigit = true) := by
    rcases hsign with rfl | rfl
    · exact ⟨d, _, rfl, Or.inr hdigit⟩
    · exact ⟨'-', _, rfl, Or.inl rfl⟩
  rw [heq, List.cons_append] at hnumber ⊢
  obtain ⟨hspace, htoken⟩ := token?_number hc (s ++ rest)
  rw [hnumber] at htoken
  exact tokens?_of_token? hspace htoken

theorem IsString.lexes {s : List Char} {parts : List StringPart} (h : IsString s parts) :
    Lexes s [.string ((textOfParts parts).map String.ofList)] := by
  intro rest _
  obtain ⟨body, rfl, hparts⟩ := h
  have htoken : token? ('"' :: (body ++ '"' :: rest)) =
      some (.string ((textOfParts parts).map String.ofList), rest) := by
    rw [token?, stringParts_append hparts]
    rfl
  have htokens := tokens?_of_token? (by decide) htoken
  simpa using htokens

theorem Spells.lexes {s : List Char} {text : String} (h : Spells s text) :
    Lexes s [.string (some text)] := by
  obtain ⟨parts, hstring, hencodes⟩ := h
  have hlexes := hstring.lexes
  rwa [textOfParts_of_encodes hencodes, Option.map_some, String.ofList_toList] at hlexes

theorem lexes_null : Lexes ['n', 'u', 'l', 'l'] [.null] := fun _ _ =>
  tokens?_of_token? (by decide) rfl

theorem lexes_true : Lexes ['t', 'r', 'u', 'e'] [.true] := fun _ _ =>
  tokens?_of_token? (by decide) rfl

theorem lexes_false : Lexes ['f', 'a', 'l', 's', 'e'] [.false] := fun _ _ =>
  tokens?_of_token? (by decide) rfl

/-! ## Texts put together -/

/-- No number goes on with the character. -/
theorem ends_cons {c : Char} (hdigit : c.isDigit = false) (hother : c ∉ ['.', 'e', 'E'])
    (s : List Char) : Ends (c :: s) := by
  simp only [List.mem_cons, List.not_mem_nil, or_false, not_or] at hother
  obtain ⟨hpoint, he, hE⟩ := hother
  exact ⟨noDigit_cons hdigit s, by simpa using hpoint, by simpa using he, by simpa using hE⟩

theorem Gap.ends {gap rest : List Char} (h : Gap gap) (hrest : Ends rest) : Ends (gap ++ rest) := by
  have hspaces : ∀ d ∈ [' ', '\t', '\n', '\r'], d.isDigit = false ∧ d ∉ ['.', 'e', 'E'] := by
    simp
  cases gap with
  | nil => exact hrest
  | cons c gap =>
      obtain ⟨hdigit, hother⟩ := hspaces c (h c List.mem_cons_self)
      exact ends_cons hdigit hother _

theorem Gap.lexes {gap : List Char} (h : Gap gap) : Lexes gap [] := by
  intro rest _
  simp [tokens?_gap h]

theorem Lexes.padded {core s : List Char} {ts : List Token} (h : Lexes core ts)
    (hpadded : Padded core s) : Lexes s ts := by
  obtain ⟨left, right, hleft, hright, rfl⟩ := hpadded
  intro rest hrest
  rw [List.append_assoc, List.append_assoc, tokens?_gap hleft, h _ (hright.ends hrest),
    tokens?_gap hright]

/-- Punctuation parts the tokens before it from those behind it. -/
theorem Lexes.punctuated {s s' : List Char} {ts ts' : List Token} {c : Char} {t : Token}
    (h : Lexes s ts) (hc : punctuation? c = some t) (h' : Lexes s' ts') :
    Lexes (s ++ c :: s') (ts ++ t :: ts') := by
  have hmem : c ∈ ['[', ']', '\x7b', '\x7d', ',', ':'] := by
    unfold punctuation? at hc
    split at hc <;> simp_all
  have hall : ∀ d ∈ ['[', ']', '\x7b', '\x7d', ',', ':'],
      d.isDigit = false ∧ d ∉ ['.', 'e', 'E'] ∧ isSpace d = false ∧ d ∉ ['t', 'f', 'n', '"'] := by
    simp [isSpace]
  obtain ⟨hdigit, hother, hspace, hword⟩ := hall c hmem
  intro rest hrest
  have htoken : token? (c :: (s' ++ rest)) = some (t, s' ++ rest) := by
    rw [token?, hc] <;> simp_all
  calc tokens? (s ++ c :: s' ++ rest)
      = tokens? (s ++ c :: (s' ++ rest)) := by rw [List.append_assoc, List.cons_append]
    _ = (tokens? (c :: (s' ++ rest))).map (ts ++ ·) := h _ (ends_cons hdigit hother _)
    _ = (((tokens? rest).map (ts' ++ ·)).map (t :: ·)).map (ts ++ ·) := by
        rw [tokens?_of_token? hspace htoken, h' rest hrest]
    _ = (tokens? rest).map ((ts ++ t :: ts') ++ ·) := by
        rw [Option.map_map, Option.map_map]
        congr 1
        funext more
        simp

/-- What stands in brackets or braces, with the tokens of these around its own. -/
theorem Lexes.enclosed {s : List Char} {ts : List Token} {c d : Char} {t u : Token}
    (h : Lexes s ts) (hc : punctuation? c = some t) (hd : punctuation? d = some u) :
    Lexes (c :: (s ++ [d])) (t :: (ts ++ [u])) :=
  gap_nil.lexes.punctuated hc (h.punctuated hd gap_nil.lexes)

/-- The tokens of a whole text. -/
theorem Lexes.tokens?_eq {s : List Char} {ts : List Token} (h : Lexes s ts) :
    tokens? s = some ts := by
  have hends : Ends [] := ⟨fun c hc => absurd hc (by simp), by simp, by simp⟩
  have hnil : tokens? [] = some [] := by rw [tokens?]
  simpa [hnil] using h [] hends

end MessageArchive.Json
