import MessageArchive.Proofs.Template.Sweep
import MessageArchive.Proofs.Text.Digits

set_option autoImplicit false

/-! # Tokens are replaced all at once

A template is made of copied texts with tokens between them:

    c₀ k₁ c₁ … kₙ cₙ

where no copied text has a token in it (`Tokenized.Of`). A per cent sign stands at the start of a token
and nowhere else in it, so tokens never overlap, and a token that is written anywhere in a template is
one that the sweep finds (`scan_token`). From this it follows that the template has one decomposition
(`Tokenized.Of.unique`), in which each token that is written in it has its place
(`Tokenized.Of.eq_join`). Values come in only afterwards: whatever they are, the name is the
decomposition with a value in the place of each token (`Tokenized.Of.substitute`).

A template is looked through by its bytes, two of them behind each per cent sign. Since no character
begins with the bytes of another one, these two bytes are the letters of a token only where the letters
themselves stand there (`Token.spelling_prefix_iff_bytes`).
-/

namespace MessageArchive.Template

open MessageArchive.Text

/-! ## Per cent signs -/

/-- What follows the per cent sign of a token. -/
def Token.letters (k : Token) : List Char := k.spelling.tail

theorem Token.spelling_eq_cons (k : Token) : k.spelling = '%' :: k.letters := by
  cases k <;> rfl

theorem Token.percent_not_mem_letters (k : Token) : '%' ∉ k.letters := by
  cases k <;> decide

theorem Token.length_letters (k : Token) : k.letters.length = 2 := by
  cases k <;> rfl

/-- No token ends in a text that begins with a per cent sign. -/
theorem not_tokenSpans_percent (a b : List Char) : ¬ TokenSpans a ('%' :: b) := by
  rintro ⟨k, p, q, hp, hq, -, hqb, hk⟩
  obtain ⟨c, p, rfl⟩ := List.exists_cons_of_ne_nil hp
  obtain ⟨d, q, rfl⟩ := List.exists_cons_of_ne_nil hq
  obtain ⟨rfl, -⟩ := List.cons_prefix_cons.1 hqb
  rw [k.spelling_eq_cons, List.cons_append] at hk
  have hletters : p ++ '%' :: q = k.letters := (List.cons.inj hk).2
  exact k.percent_not_mem_letters (hletters ▸ by simp)

/-- No token begins within a token and ends behind it. -/
theorem not_tokenSpans_token (a : List Char) (k : Token) (b : List Char) :
    ¬ TokenSpans (a ++ k.spelling) b := by
  rintro ⟨k', p, q, hp, hq, hpa, -, hk'⟩
  have hletters : k.letters <:+ a ++ k.spelling := by
    rw [k.spelling_eq_cons]
    exact (List.suffix_cons '%' k.letters).trans (List.suffix_append a _)
  -- The part of the token that is in front is shorter than a token, so it is among the letters.
  have hlength : p.length ≤ k.letters.length := by
    have hsum := congrArg List.length hk'
    have hq' : 0 < q.length := List.length_pos_iff.2 hq
    rw [List.length_append, k'.length_spelling] at hsum
    rw [k.length_letters]
    omega
  have hsuffix : p <:+ k.letters := List.suffix_of_suffix_length_le hpa hletters hlength
  obtain ⟨c, p, rfl⟩ := List.exists_cons_of_ne_nil hp
  rw [k'.spelling_eq_cons, List.cons_append] at hk'
  obtain ⟨rfl, -⟩ := List.cons.inj hk'
  exact k.percent_not_mem_letters (hsuffix.subset List.mem_cons_self)

theorem scan_spelling (k : Token) : scan k.spelling = [.token k] := by
  cases k <;> rfl

/-- **A token that is written in a template is one that the sweep finds.** -/
theorem scan_token (a : List Char) (k : Token) (b : List Char) :
    scan (a ++ k.spelling ++ b) = scan a ++ .token k :: scan b := by
  have hfront : ¬ TokenSpans a k.spelling := by
    rw [k.spelling_eq_cons]
    exact not_tokenSpans_percent a k.letters
  calc scan (a ++ k.spelling ++ b)
      = scan (a ++ k.spelling) ++ scan b := scan_append (not_tokenSpans_token a k b)
    _ = scan a ++ scan k.spelling ++ scan b := by rw [scan_append hfront]
    _ = scan a ++ .token k :: scan b := by rw [scan_spelling]; simp

/-- Tokens do not overlap: of two of them that are written at different places, the one ends before
the other begins. -/
theorem tokens_apart {a b a' b' : List Char} {k k' : Token}
    (h : a ++ k.spelling ++ b = a' ++ k'.spelling ++ b') (hlt : a.length < a'.length) :
    a.length + k.spelling.length ≤ a'.length := by
  apply Nat.le_of_not_lt
  intro hover
  have hpre : a <+: a' := by
    have ha : a <+: a ++ k.spelling ++ b := by simp [List.append_assoc]
    have ha' : a' <+: a ++ k.spelling ++ b := by simp [h, List.append_assoc]
    exact List.prefix_of_prefix_length_le ha ha' (Nat.le_of_lt hlt)
  obtain ⟨c, rfl⟩ := hpre
  rw [List.append_assoc, List.append_assoc, List.append_assoc, List.append_cancel_left_eq,
    ← List.append_assoc] at h
  rw [List.length_append] at hlt hover
  -- What is between the two beginnings is a part of the first token, so the second begins in it.
  have hc : c <+: k.spelling := by
    have hleft : c <+: k.spelling ++ b := h ▸ by simp [List.append_assoc]
    exact List.prefix_of_prefix_length_le hleft (List.prefix_append _ b) (by omega)
  obtain ⟨q, hq⟩ := hc
  have hlength := congrArg List.length hq
  rw [List.length_append] at hlength
  have hc0 : c ≠ [] := List.ne_nil_of_length_pos (by omega)
  have hq0 : q ≠ [] := List.ne_nil_of_length_pos (by omega)
  rw [← hq, List.append_assoc, List.append_assoc, List.append_cancel_left_eq,
    k'.spelling_eq_cons] at h
  have hqb : q <+: '%' :: (k'.letters ++ b') := ⟨b, h⟩
  exact not_tokenSpans_percent c _ ⟨k, c, q, hc0, hq0, List.suffix_refl c, hqb, hq⟩

/-! ## Decompositions -/

/-- Copied texts, with a token between each two of them. -/
inductive Tokenized where
  | last (copied : List Char)
  | more (copied : List Char) (k : Token) (rest : Tokenized)
  deriving DecidableEq, Repr

namespace Tokenized

/-- The text that has a value in the place of each token. -/
def fill (value : Token → List Char) : Tokenized → List Char
  | .last c => c
  | .more c k rest => c ++ value k ++ rest.fill value

/-- The copied texts from left to right. -/
def copied : Tokenized → List (List Char)
  | .last c => [c]
  | .more c _ rest => c :: rest.copied

/-- The one decomposition, a token, and the other decomposition. -/
def join : Tokenized → Token → Tokenized → Tokenized
  | .last c, k, back => .more c k back
  | .more c k' rest, k, back => .more c k' (rest.join k back)

/-- The copied characters and tokens of a decomposition. -/
def pieces : Tokenized → List Piece
  | .last c => c.map .copied
  | .more c k rest => c.map .copied ++ .token k :: rest.pieces

/-- The decomposition with a text in front of its first copied text. -/
def prepend (front : List Char) : Tokenized → Tokenized
  | .last c => .last (front ++ c)
  | .more c k rest => .more (front ++ c) k rest

/-- The decomposition with the given copied characters and tokens. -/
def ofPieces : List Piece → Tokenized
  | [] => .last []
  | .copied c :: rest => (ofPieces rest).prepend [c]
  | .token k :: rest => .more [] k (ofPieces rest)

/-- The template is the decomposition with its tokens as they are spelled, and there is no token in
its copied texts. -/
structure Of (d : Tokenized) (template : List Char) : Prop where
  written : d.fill Token.spelling = template
  copied : ∀ c ∈ d.copied, NoToken c

/-! ### Pieces -/

theorem fill_eq_flatMap (value : Token → List Char) (d : Tokenized) :
    d.fill value = d.pieces.flatMap (Piece.text value) := by
  have hcopied : ∀ c : List Char, (c.map Piece.copied).flatMap (Piece.text value) = c := by
    intro c
    rw [List.flatMap_map]
    exact List.flatMap_singleton' c
  induction d with
  | last c => exact (hcopied c).symm
  | more c k rest ih =>
      rw [fill, pieces, List.flatMap_append, hcopied, List.flatMap_cons, ← ih, Piece.text,
        List.append_assoc]

theorem ofPieces_append (c : List Char) (more : List Piece) :
    ofPieces (c.map .copied ++ more) = (ofPieces more).prepend c := by
  induction c with
  | nil => cases h : ofPieces more <;> simp [prepend, h]
  | cons x c ih =>
      rw [List.map_cons, List.cons_append, ofPieces, ih]
      cases ofPieces more <;> simp [prepend]

theorem ofPieces_pieces (d : Tokenized) : ofPieces d.pieces = d := by
  induction d with
  | last c =>
      have h := ofPieces_append c []
      rw [List.append_nil] at h
      rw [pieces, h, ofPieces, prepend, List.append_nil]
  | more c k rest ih => rw [pieces, ofPieces_append, ofPieces, ih, prepend, List.append_nil]

theorem pieces_inj {d d' : Tokenized} (h : d.pieces = d'.pieces) : d = d' := by
  rw [← ofPieces_pieces d, h, ofPieces_pieces]

theorem pieces_join (front : Tokenized) (k : Token) (back : Tokenized) :
    (front.join k back).pieces = front.pieces ++ .token k :: back.pieces := by
  induction front with
  | last c => rfl
  | more c k' rest ih => simp only [join, pieces, ih, List.append_assoc, List.cons_append]

/-- The sweep cuts a text into the pieces of each decomposition that has no token in its copied
texts. -/
theorem scan_fill {d : Tokenized} (h : ∀ c ∈ d.copied, NoToken c) :
    scan (d.fill Token.spelling) = d.pieces := by
  induction d with
  | last c => exact noToken_iff_scan.1 (h c (List.mem_singleton_self c))
  | more c k rest ih =>
      have hc : NoToken c := h c List.mem_cons_self
      have hrest : ∀ c ∈ rest.copied, NoToken c := fun c hc => h c (List.mem_cons_of_mem _ hc)
      rw [fill, scan_token, noToken_iff_scan.1 hc, ih hrest, pieces]

namespace Of

variable {d d' : Tokenized} {template : List Char}

theorem scan_eq (h : d.Of template) : scan template = d.pieces := by
  rw [← h.written]
  exact scan_fill h.copied

/-- A template has at most one decomposition. -/
theorem unique (h : d.Of template) (h' : d'.Of template) : d = d' :=
  pieces_inj (h.scan_eq.symm.trans h'.scan_eq)

/-- Whatever the values are, they are put in the places of the tokens. -/
theorem substitute (h : d.Of template) (value : Token → List Char) :
    substitute value template = d.fill value := by
  rw [Template.substitute, h.scan_eq, fill_eq_flatMap]

/-- A character at which no token begins goes to the copied text behind it. -/
theorem cons {c : Char} {rest : List Char} (h : d.Of rest)
    (hc : ∀ k : Token, ¬ k.spelling <+: c :: rest) : (d.prepend [c]).Of (c :: rest) := by
  have hfirst : ∀ s, s <+: rest → NoToken s → NoToken (c :: s) := by
    intro s hs hno
    refine noToken_cons_iff.2 ⟨fun k hk => hc k (hk.trans ?_), hno⟩
    exact (List.prefix_cons_inj c).2 hs
  obtain ⟨rfl, hcopied⟩ := h
  cases d with
  | last s =>
      refine ⟨rfl, ?_⟩
      intro s' hs'
      obtain rfl := List.mem_singleton.1 hs'
      exact hfirst s (List.prefix_refl s) (hcopied s (List.mem_singleton_self s))
  | more s k more =>
      refine ⟨rfl, ?_⟩
      intro s' hs'
      rcases List.mem_cons.1 hs' with rfl | hs'
      · refine hfirst s ?_ (hcopied s List.mem_cons_self)
        rw [fill, List.append_assoc]
        exact List.prefix_append s _
      · exact hcopied s' (List.mem_cons_of_mem _ hs')

end Of

/-- Every template has a decomposition. -/
theorem exists_of (template : List Char) : ∃ d : Tokenized, d.Of template := by
  -- Along the sweep: it comes to a token, or goes on by one character.
  fun_induction scan template with
  | case1 a b rest k hk ih =>
      obtain ⟨d, hd⟩ := ih
      refine ⟨.more [] k d, ?_, ?_⟩
      · rw [fill, hd.written, Token.ofLetters?_eq_some_iff.1 hk]
        rfl
      · intro c hc
        rcases List.mem_cons.1 hc with rfl | hc
        · exact noToken_iff_scan.2 rfl
        · exact hd.copied c hc
  | case2 a b rest hk ih =>
      obtain ⟨d, hd⟩ := ih
      refine ⟨d.prepend ['%'], hd.cons fun k hk' => ?_⟩
      obtain ⟨-, a', b', more, hrest, hsome⟩ := Token.spelling_prefix_iff.1 hk'
      simp only [List.cons.injEq] at hrest
      obtain ⟨rfl, rfl, -⟩ := hrest
      rw [hk] at hsome
      cases hsome
  | case3 c rest hshort ih =>
      obtain ⟨d, hd⟩ := ih
      refine ⟨d.prepend [c], hd.cons fun k hk => ?_⟩
      obtain ⟨hc, a, b, more, hrest, -⟩ := Token.spelling_prefix_iff.1 hk
      exact hshort a b more hc hrest
  | case4 => exact ⟨.last [], rfl, fun c hc => by
      obtain rfl := List.mem_singleton.1 hc
      exact noToken_iff_scan.2 rfl⟩

/-- A token that is written in a template is one of its decomposition, and what stands before it and
behind it is decomposed on its own. -/
theorem Of.eq_join {d : Tokenized} {a b : List Char} {k : Token}
    (h : d.Of (a ++ k.spelling ++ b)) :
    ∃ front back : Tokenized, front.Of a ∧ back.Of b ∧ d = front.join k back := by
  obtain ⟨front, hfront⟩ := exists_of a
  obtain ⟨back, hback⟩ := exists_of b
  refine ⟨front, back, hfront, hback, pieces_inj ?_⟩
  calc d.pieces = scan (a ++ k.spelling ++ b) := h.scan_eq.symm
    _ = scan a ++ .token k :: scan b := scan_token a k b
    _ = front.pieces ++ .token k :: back.pieces := by rw [hfront.scan_eq, hback.scan_eq]
    _ = (front.join k back).pieces := (pieces_join front k back).symm

end Tokenized

/-! ## Per cent signs that are copied -/

/-- A per cent sign at which no token begins is copied, and the sweep goes on with the character
behind it. -/
theorem scan_percent {rest : List Char} (h : ∀ k : Token, ¬ k.spelling <+: '%' :: rest) :
    scan ('%' :: rest) = .copied '%' :: scan rest := by
  cases rest with
  | nil => rfl
  | cons x rest =>
      cases rest with
      | nil => rfl
      | cons y more =>
          refine scan_percent_of_none ?_ more
          rw [Option.eq_none_iff_forall_ne_some]
          intro k hk
          exact h k (Token.spelling_prefix_iff.2 ⟨rfl, x, y, more, rfl, hk⟩)

theorem substitute_percent (value : Token → List Char) (a : List Char) {rest : List Char}
    (h : ∀ k : Token, ¬ k.spelling <+: '%' :: rest) :
    substitute value (a ++ '%' :: rest) =
      substitute value a ++ '%' :: substitute value rest := by
  rw [substitute, scan_append (not_tokenSpans_percent a rest), scan_percent h,
    List.flatMap_append, List.flatMap_cons]
  rfl

/-! ### The bytes behind a per cent sign -/

theorem utf8_ofList_cons (c : Char) (s : List Char) :
    utf8 (String.ofList (c :: s)) = String.utf8EncodeChar c ++ utf8 (String.ofList s) := by
  rw [← List.singleton_append, utf8_ofList_append, utf8, String.toByteArray_ofList,
    List.utf8Encode_singleton]
  simp

/-- No character begins with the bytes of another one. -/
theorem utf8EncodeChar_inj {c d : Char} {s t : List UInt8}
    (h : String.utf8EncodeChar c ++ s = String.utf8EncodeChar d ++ t) : c = d := by
  have hc := @ByteArray.utf8DecodeChar?_utf8EncodeChar_append s.toByteArray c
  have hd := @ByteArray.utf8DecodeChar?_utf8EncodeChar_append t.toByteArray d
  rw [← List.toByteArray_append] at hc hd
  rw [h] at hc
  exact Option.some.inj (hc.symm.trans hd)

/-- A text begins with the bytes of another one only where it begins with its characters. -/
theorem utf8_prefix_iff {s t : List Char} :
    utf8 (String.ofList s) <+: utf8 (String.ofList t) ↔ s <+: t := by
  constructor
  · intro h
    induction s generalizing t with
    | nil => exact List.nil_prefix
    | cons c s ih =>
        obtain ⟨more, hmore⟩ := h
        rw [utf8_ofList_cons, List.append_assoc] at hmore
        cases t with
        | nil =>
            have hne : String.utf8EncodeChar c ≠ [] := String.utf8EncodeChar_ne_nil
            exact absurd (List.append_eq_nil_iff.1 hmore).1 hne
        | cons d t =>
            rw [utf8_ofList_cons] at hmore
            obtain rfl := utf8EncodeChar_inj hmore
            have hrest : utf8 (String.ofList s) <+: utf8 (String.ofList t) :=
              ⟨more, List.append_cancel_left hmore⟩
            exact (List.prefix_cons_inj c).2 (ih hrest)
  · rintro ⟨more, rfl⟩
    rw [utf8_ofList_append]
    exact List.prefix_append _ _

/-- Whether a token begins at a per cent sign is told by the two bytes behind it, also where these
are parts of longer characters. -/
theorem Token.spelling_prefix_iff_bytes {k : Token} {rest : List Char} :
    k.spelling <+: '%' :: rest ↔
      (utf8 (String.ofList rest)).take 2 = utf8 (String.ofList k.letters) := by
  have hlength : (utf8 (String.ofList k.letters)).length = 2 := by
    cases k <;> decide
  calc k.spelling <+: '%' :: rest
      ↔ k.letters <+: rest := by rw [k.spelling_eq_cons, List.prefix_cons_inj]
    _ ↔ utf8 (String.ofList k.letters) <+: utf8 (String.ofList rest) := utf8_prefix_iff.symm
    _ ↔ (utf8 (String.ofList rest)).take 2 = utf8 (String.ofList k.letters) := by
        rw [List.prefix_iff_eq_take, hlength, eq_comm]

/-! ## All tokens of a template -/

/-- How the tokens of a template are replaced, given its decomposition. -/
structure ReplacesAtOnce (template : List Char) (d : Tokenized) : Prop where
  /-- It is the decomposition of the template, -/
  of : d.Of template
  /-- and the only one. -/
  unique : ∀ d' : Tokenized, d'.Of template → d' = d
  /-- Each token that is written in the template is one of the decomposition, between those of what
  stands before it and of what stands behind it. -/
  occurrences : ∀ (a : List Char) (k : Token) (b : List Char), template = a ++ k.spelling ++ b →
    ∃ front back : Tokenized, front.Of a ∧ back.Of b ∧ d = front.join k back
  /-- Tokens that are written at different places do not overlap. -/
  apart : ∀ (a : List Char) (k : Token) (b a' : List Char) (k' : Token) (b' : List Char),
    template = a ++ k.spelling ++ b → template = a' ++ k'.spelling ++ b' →
      a.length < a'.length → a.length + k.spelling.length ≤ a'.length
  /-- Whatever the values are, one stands in the place of each token, and the rest is copied. -/
  replaced : ∀ value : Token → List Char, substitute value template = d.fill value
  /-- A per cent sign whose next two bytes are the letters of no token is copied, and the sweep goes on
  with the character behind it. -/
  percent : ∀ a rest : List Char, template = a ++ '%' :: rest →
    (∀ k : Token, (utf8 (String.ofList rest)).take 2 ≠ utf8 (String.ofList k.letters)) →
      ∀ value : Token → List Char, substitute value template =
        substitute value a ++ '%' :: substitute value rest

/-- **The sweep replaces all tokens at once.** A template has one decomposition into copied texts and
tokens, which does not depend on any value. All tokens that are written in the template are in it, and
none of them overlap. For all values the name is the decomposition with a value in the place of each
token, so no value is looked through for tokens. A per cent sign that begins no token stays. -/
theorem tokens_are_replaced_at_once (template : List Char) :
    ∃ d : Tokenized, ReplacesAtOnce template d := by
  obtain ⟨d, hd⟩ := Tokenized.exists_of template
  refine ⟨d, hd, fun d' hd' => hd'.unique hd, ?_, ?_, hd.substitute, ?_⟩
  · rintro a k b rfl
    exact hd.eq_join
  · intro a k b a' k' b' h h' hlt
    exact tokens_apart (h.symm.trans h') hlt
  · rintro a rest rfl hbytes value
    refine substitute_percent value a fun k hk => ?_
    exact hbytes k (Token.spelling_prefix_iff_bytes.1 hk)

-- A doubled per cent sign, one before a character of two bytes, and a token that breaks off.
example : (Tokenized.more "%".toList .id (.more "%é".toList .timestamp (.last "%i".toList))).Of
    "%%id%é%TS%i".toList := ⟨by decide, by decide⟩

end MessageArchive.Template
