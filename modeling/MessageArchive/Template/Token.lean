import MessageArchive.Calendar.Format
import MessageArchive.Message

set_option autoImplicit false

/-! # Fixed tokens

A fixed token is a per cent sign and two letters. All tokens of a template are replaced in one
sweep from left to right: `scan` cuts the template into tokens and copied characters without
looking at any value, so no value is ever scanned. A per cent sign that starts no token is copied,
and the scan goes on with the character after it.
-/

namespace MessageArchive.Template

/-- What a fixed token stands for. -/
inductive Token where
  | id
  | fromParty
  | toParty
  | fromService
  | toService
  | timestamp
  deriving DecidableEq, Repr

namespace Token

/-- The token with the given letters after the per cent sign. -/
def ofLetters? : Char → Char → Option Token
  | 'i', 'd' => some .id
  | 'f', 'p' => some .fromParty
  | 't', 'p' => some .toParty
  | 'f', 's' => some .fromService
  | 't', 's' => some .toService
  | 'T', 'S' => some .timestamp
  | _, _ => none

/-- The token as it is written in a template. -/
def spelling : Token → List Char
  | .id => ['%', 'i', 'd']
  | .fromParty => ['%', 'f', 'p']
  | .toParty => ['%', 't', 'p']
  | .fromService => ['%', 'f', 's']
  | .toService => ['%', 't', 's']
  | .timestamp => ['%', 'T', 'S']

/-- The text that replaces the token. -/
def value (context : Context) (now : Calendar.Moment) : Token → List Char
  | .id => context.id.toList
  | .fromParty => context.fromParty.toList
  | .toParty => context.toParty.toList
  | .fromService => context.fromService.toList
  | .toService => context.toService.toList
  | .timestamp => Calendar.timestamp now

theorem ofLetters?_eq_some_iff {a b : Char} {k : Token} :
    ofLetters? a b = some k ↔ k.spelling = ['%', a, b] := by
  constructor
  · intro h
    unfold ofLetters? at h
    split at h <;> first | (cases h; rfl) | cases h
  · intro h
    cases k <;> simp only [spelling, List.cons.injEq, and_true, true_and] at h <;>
      obtain ⟨rfl, rfl⟩ := h <;> rfl

end Token

/-- A part of a template: a copied character or a token. -/
inductive Piece where
  | copied (c : Char)
  | token (k : Token)
  deriving DecidableEq, Repr

/-- Cuts a template into tokens and copied characters. -/
def scan : List Char → List Piece
  | '%' :: a :: b :: rest =>
      match Token.ofLetters? a b with
      | some k => .token k :: scan rest
      | none => .copied '%' :: scan (a :: b :: rest)
  | c :: rest => .copied c :: scan rest
  | [] => []

/-- A part of a template with a value for each token. -/
def Piece.text (value : Token → List Char) : Piece → List Char
  | .copied c => [c]
  | .token k => value k

/-- Replaces all fixed tokens of a template. -/
def substitute (value : Token → List Char) (template : List Char) : List Char :=
  (scan template).flatMap (Piece.text value)

end MessageArchive.Template
