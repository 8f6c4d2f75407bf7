import MessageArchive.Template.Resolver

set_option autoImplicit false

/-! # The sweep for tokens

The sweep copies the texts that have no token in them (`noToken_iff_scan`). Of two texts behind one
another it goes through the one and then through the other, unless a token begins in the first and
ends in the second (`TokenSpans`, `scan_append`).
-/

namespace MessageArchive.Template

open MessageArchive.Text

/-! ## Tokens -/

/-- All tokens. -/
def Token.all : List Token := [.id, .fromParty, .toParty, .fromService, .toService, .timestamp]

theorem Token.mem_all (k : Token) : k ∈ Token.all := by
  cases k <;> decide

theorem Token.length_spelling (k : Token) : k.spelling.length = 3 := by
  cases k <;> rfl

/-- There is no blank in a token. -/
theorem Token.not_blank_of_mem_spelling {k : Token} {c : Char} (h : c ∈ k.spelling) :
    isBlank c = false := by
  have hall : k.spelling.all (fun c => !isBlank c) = true := by
    cases k <;> rfl
  simpa using List.all_eq_true.1 hall c h

theorem scan_cons_of_ne {c : Char} (h : c ≠ '%') (rest : List Char) :
    scan (c :: rest) = .copied c :: scan rest := by
  rw [scan]
  intro x y more hc _
  exact h hc

theorem scan_percent_of_none {x y : Char} (h : Token.ofLetters? x y = none) (rest : List Char) :
    scan ('%' :: x :: y :: rest) = .copied '%' :: scan (x :: y :: rest) := by
  rw [scan, h]

/-! ## Texts without tokens -/

/-- No token is written in the text. -/
def NoToken (text : List Char) : Prop := ∀ k : Token, ¬ k.spelling <:+: text

theorem NoToken.of_infix {s text : List Char} (h : NoToken text) (hs : s <:+: text) : NoToken s :=
  fun k hk => h k (hk.trans hs)

theorem Token.spelling_prefix_iff {k : Token} {c : Char} {rest : List Char} :
    k.spelling <+: c :: rest ↔
      c = '%' ∧ ∃ a b more, rest = a :: b :: more ∧ ofLetters? a b = some k := by
  constructor
  · rintro ⟨more, hmore⟩
    obtain ⟨a, b, hk⟩ : ∃ a b, k.spelling = ['%', a, b] := by
      cases k <;> exact ⟨_, _, rfl⟩
    rw [hk] at hmore
    obtain ⟨rfl, rfl⟩ := List.cons.inj hmore
    exact ⟨rfl, a, b, more, rfl, ofLetters?_eq_some_iff.2 hk⟩
  · rintro ⟨rfl, a, b, more, rfl, hk⟩
    rw [ofLetters?_eq_some_iff.1 hk]
    exact List.prefix_append ['%', a, b] more

theorem noToken_cons_iff {c : Char} {rest : List Char} :
    NoToken (c :: rest) ↔ (∀ k : Token, ¬ k.spelling <+: c :: rest) ∧ NoToken rest := by
  simp only [NoToken, List.infix_cons_iff, not_or, forall_and]

/-- The sweep copies a text when there is no token in it, and only then. -/
theorem noToken_iff_scan {text : List Char} : NoToken text ↔ scan text = text.map Piece.copied := by
  -- Along the sweep: a token is in the text when it is in front or further on.
  fun_induction scan text with
  | case1 a b rest k hk ih =>
      have hhead : k.spelling <+: '%' :: a :: b :: rest :=
        Token.spelling_prefix_iff.2 ⟨rfl, a, b, rest, rfl, hk⟩
      refine iff_of_false (fun h => h k hhead.isInfix) ?_
      simp
  | case2 a b rest hk ih =>
      rw [noToken_cons_iff, ih]
      refine ⟨fun h => congrArg _ h.2, fun h => ⟨fun k hhead => ?_, (List.cons.inj h).2⟩⟩
      obtain ⟨-, a', b', more, hrest, hk'⟩ := Token.spelling_prefix_iff.1 hhead
      simp only [List.cons.injEq] at hrest
      obtain ⟨rfl, rfl, -⟩ := hrest
      rw [hk] at hk'
      cases hk'
  | case3 c rest hshort ih =>
      rw [noToken_cons_iff, ih]
      refine ⟨fun h => congrArg _ h.2, fun h => ⟨fun k hhead => ?_, (List.cons.inj h).2⟩⟩
      obtain ⟨hc, a, b, more, hrest, -⟩ := Token.spelling_prefix_iff.1 hhead
      exact hshort a b more hc hrest
  | case4 =>
      refine iff_of_true (fun k hk => ?_) rfl
      have hlength := k.length_spelling
      rw [List.infix_nil.1 hk] at hlength
      cases hlength

instance (text : List Char) : Decidable (NoToken text) := decidable_of_iff _ noToken_iff_scan.symm

theorem substitute_of_noToken (value : Token → List Char) {text : List Char} (h : NoToken text) :
    substitute value text = text := by
  rw [substitute, noToken_iff_scan.1 h, List.flatMap_map]
  exact List.flatMap_singleton' text

/-! ## Texts behind one another -/

/-- A token begins at the end of the first text and ends in the second. -/
def TokenSpans (a b : List Char) : Prop :=
  ∃ (k : Token) (p q : List Char), p ≠ [] ∧ q ≠ [] ∧ p <:+ a ∧ q <+: b ∧ p ++ q = k.spelling

/-- A token that stands across the border has one or two of its characters before it. -/
theorem tokenSpans_iff {a b : List Char} :
    TokenSpans a b ↔
      ∃ k ∈ Token.all, ∃ n ∈ [1, 2], k.spelling.take n <:+ a ∧ k.spelling.drop n <+: b := by
  constructor
  · rintro ⟨k, p, q, hp, hq, hpa, hqb, hk⟩
    have hlength : k.spelling.length = 3 := k.length_spelling
    have hp' : 0 < p.length := List.length_pos_iff.2 hp
    have hq' : 0 < q.length := List.length_pos_iff.2 hq
    have hsum : p.length + q.length = 3 := by rw [← List.length_append, hk, hlength]
    refine ⟨k, k.mem_all, p.length, ?_, ?_, ?_⟩
    · simp only [List.mem_cons, List.not_mem_nil, or_false]
      omega
    · rwa [← hk, List.take_left]
    · rwa [← hk, List.drop_left]
  · rintro ⟨k, -, n, hn, hpa, hqb⟩
    have hlength : k.spelling.length = 3 := k.length_spelling
    have hn' : n = 1 ∨ n = 2 := by simpa using hn
    refine ⟨k, _, _, ?_, ?_, hpa, hqb, List.take_append_drop n k.spelling⟩
    · apply List.ne_nil_of_length_pos
      rw [List.length_take]
      omega
    · apply List.ne_nil_of_length_pos
      rw [List.length_drop]
      omega

instance (a b : List Char) : Decidable (TokenSpans a b) :=
  decidable_of_iff _ tokenSpans_iff.symm

theorem TokenSpans.of_suffix {a a' b : List Char} (h : TokenSpans a b) (ha : a <:+ a') :
    TokenSpans a' b := by
  obtain ⟨k, p, q, hp, hq, hpa, hqb, hk⟩ := h
  exact ⟨k, p, q, hp, hq, hpa.trans ha, hqb, hk⟩

/-- The first text ends with a character of a token. -/
theorem TokenSpans.exists_getLast? {a b : List Char} (h : TokenSpans a b) :
    ∃ (k : Token) (c : Char), c ∈ k.spelling ∧ a.getLast? = some c := by
  obtain ⟨k, p, q, hp, -, ⟨front, rfl⟩, -, hk⟩ := h
  refine ⟨k, p.getLast hp, hk ▸ List.mem_append_left q (List.getLast_mem hp), ?_⟩
  rw [List.getLast?_append, List.getLast?_eq_some_getLast hp, Option.some_or]

/-- The second text begins with a character of a token. -/
theorem TokenSpans.exists_head? {a b : List Char} (h : TokenSpans a b) :
    ∃ (k : Token) (c : Char), c ∈ k.spelling ∧ b.head? = some c := by
  obtain ⟨k, p, q, -, hq, -, ⟨back, rfl⟩, hk⟩ := h
  refine ⟨k, q.head hq, hk ▸ List.mem_append_right p (List.head_mem hq), ?_⟩
  rw [List.head?_append, List.head?_eq_some_head hq, Option.some_or]

/-- Letters that would make a token across the border make none. -/
theorem ofLetters?_eq_none_of_not_spans {a b p q : List Char} {x y : Char}
    (h : ¬ TokenSpans a b) (hp : p ≠ []) (hq : q ≠ []) (hpa : p <:+ a) (hqb : q <+: b)
    (hpq : p ++ q = ['%', x, y]) : Token.ofLetters? x y = none := by
  cases hk : Token.ofLetters? x y with
  | none => rfl
  | some k =>
      have hspelling : p ++ q = k.spelling := hpq.trans (Token.ofLetters?_eq_some_iff.1 hk).symm
      exact absurd ⟨k, p, q, hp, hq, hpa, hqb, hspelling⟩ h

/-- A per cent sign with fewer than two characters behind it stays a copied character when a text
follows. -/
theorem scan_percent_append {rest b : List Char} (hshort : ∀ x y more, rest ≠ x :: y :: more)
    (h : ¬ TokenSpans ('%' :: rest) b) :
    scan ('%' :: (rest ++ b)) = .copied '%' :: scan (rest ++ b) := by
  cases rest with
  | nil =>
      cases b with
      | nil => rfl
      | cons x b =>
          cases b with
          | nil => rfl
          | cons y more =>
              refine scan_percent_of_none ?_ more
              exact ofLetters?_eq_none_of_not_spans (p := ['%']) (q := [x, y]) h (by simp) (by simp)
                (List.suffix_refl _) (List.prefix_append [x, y] more) rfl
  | cons x rest =>
      cases rest with
      | nil =>
          cases b with
          | nil => rfl
          | cons y more =>
              refine scan_percent_of_none ?_ more
              exact ofLetters?_eq_none_of_not_spans (p := ['%', x]) (q := [y]) h (by simp) (by simp)
                (List.suffix_refl _) (List.prefix_append [y] more) rfl
      | cons y more => exact absurd rfl (hshort x y more)

/-- **The sweep for tokens goes through the one text and then through the other**, when no token
stands across the border. -/
theorem scan_append {a b : List Char} (h : ¬ TokenSpans a b) :
    scan (a ++ b) = scan a ++ scan b := by
  -- The induction follows the sweep; it is at the last two characters of `a` that `b` could matter.
  fun_induction scan a with
  | case1 x y rest k hk ih =>
      have hrest : ¬ TokenSpans rest b := fun hs =>
        h (hs.of_suffix (List.suffix_append ['%', x, y] rest))
      simp only [List.cons_append, scan, hk, ih hrest]
  | case2 x y rest hk ih =>
      have hrest : ¬ TokenSpans (x :: y :: rest) b := fun hs =>
        h (hs.of_suffix (List.suffix_cons ..))
      rw [List.cons_append, List.cons_append, List.cons_append, scan_percent_of_none hk,
        List.cons_append, ← ih hrest, List.cons_append, List.cons_append]
  | case3 c rest hshort ih =>
      have hrest : ¬ TokenSpans rest b := fun hs => h (hs.of_suffix (List.suffix_cons ..))
      rw [List.cons_append, List.cons_append, ← ih hrest]
      by_cases hc : c = '%'
      · subst hc
        exact scan_percent_append (fun x y more hmore => hshort x y more rfl hmore) h
      · exact scan_cons_of_ne hc (rest ++ b)
  | case4 => rfl

theorem withTokens_append {a b : List Char} (h : ¬ TokenSpans a b) (context : Context)
    (now : Calendar.Moment) :
    withTokens context now (a ++ b) = withTokens context now a ++ withTokens context now b := by
  rw [withTokens, substitute, scan_append h, List.flatMap_append]
  rfl

/-! ### Characters of no token -/

theorem noToken_append_iff {a b : List Char} :
    NoToken (a ++ b) ↔ NoToken a ∧ NoToken b ∧ ¬ TokenSpans a b := by
  constructor
  · intro h
    refine ⟨h.of_infix (List.prefix_append a b).isInfix,
      h.of_infix (List.suffix_append a b).isInfix, ?_⟩
    rintro ⟨k, p, q, hp, hq, hpa, hqb, hk⟩
    exact h k (List.infix_append_iff_ne_nil.2 (Or.inr (Or.inr ⟨p, q, hp, hq, hk.symm, hpa, hqb⟩)))
  · rintro ⟨ha, hb, hborder⟩ k hk
    rcases List.infix_append_iff_ne_nil.1 hk with hka | hkb | ⟨p, q, hp, hq, hpq, hpa, hqb⟩
    · exact ha k hka
    · exact hb k hkb
    · exact hborder ⟨k, p, q, hp, hq, hpa, hqb, hpq.symm⟩

/-- There is no character of a token in the text. -/
def Foreign (text : List Char) : Prop := ∀ c ∈ text, ∀ k : Token, c ∉ k.spelling

theorem Foreign.noToken {text : List Char} (h : Foreign text) : NoToken text := by
  intro k hk
  have hne : k.spelling ≠ [] := by
    cases k <;> decide
  obtain ⟨c, hc⟩ := List.exists_mem_of_ne_nil _ hne
  exact h c (hk.subset hc) k hc

theorem Foreign.not_tokenSpans_left {a : List Char} (h : Foreign a) (b : List Char) :
    ¬ TokenSpans a b := by
  intro hspans
  obtain ⟨k, c, hc, hlast⟩ := hspans.exists_getLast?
  exact h c (List.mem_of_getLast? hlast) k hc

theorem Foreign.not_tokenSpans_right {b : List Char} (h : Foreign b) (a : List Char) :
    ¬ TokenSpans a b := by
  intro hspans
  obtain ⟨k, c, hc, hhead⟩ := hspans.exists_head?
  exact h c (List.mem_of_head? hhead) k hc

/-- What has no character of a token in it makes no token with what is written beside it. -/
theorem NoToken.between {text front back : List Char} (h : NoToken text) (hfront : Foreign front)
    (hback : Foreign back) : NoToken (front ++ text ++ back) :=
  noToken_append_iff.2 ⟨noToken_append_iff.2 ⟨hfront.noToken, h, hfront.not_tokenSpans_left text⟩,
    hback.noToken, hback.not_tokenSpans_right _⟩

end MessageArchive.Template
