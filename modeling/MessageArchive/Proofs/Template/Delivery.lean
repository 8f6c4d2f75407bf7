import MessageArchive.Proofs.Template.LiteralValues
import MessageArchive.Proofs.Template.Sweep
import MessageArchive.Proofs.Text.Trimming

set_option autoImplicit false

/-! # Properties that a template can address

A reference is written between brackets, and it comes back from them when three things hold: the
brackets are those that it was written between, blanks at its ends do not belong to it, and there is
no token in it (`Reference.Addressable`). Then the property it names is delivered as it is
(`resolve_reference`).

To be read, a reference is split at its last slash, so there is none in the name of a property that
is read. Properties with a slash in their name can be set, and make no difference to any template
(`resolve_congr`).
-/

namespace MessageArchive.Template

open MessageArchive.Audit MessageArchive.Text

/-! ## References in brackets -/

namespace Decomposition

/-- One reference and nothing else. -/
def alone (body : List Char) : Decomposition := .more (.last []) body (.last (.last []))

end Decomposition

namespace Reference

/-- The reference in brackets, with something before and behind it. -/
def bracketed (r : Reference) (front back : List Char) : List Char :=
  enclose '[' ']' (front ++ r.text ++ back)

/-- What makes a reference come back from its brackets: it ends where they do and blanks just inside
them are not part of it, the last slash is the one it was written with, and no token is in it. -/
structure Addressable (r : Reference) : Prop where
  spaceCloses : ']' ∉ r.space.toList
  nameCloses : ']' ∉ r.name.toList
  nameSlash : '/' ∉ r.name.toList
  begins : ∀ c ∈ r.space.toList.head?, isBlank c = false
  ends : ∀ c ∈ r.name.toList.getLast?, isBlank c = false
  noToken : NoToken (r.bracketed [] [])

variable {r : Reference} {front back : List Char}

namespace Addressable

theorem head_text (h : r.Addressable) : ∀ c, r.text.head? = some c → isBlank c = false := by
  intro c hc
  rw [text, List.head?_append, Option.or_eq_some_iff] at hc
  rcases hc with hspace | ⟨-, hslash⟩
  · exact h.begins c hspace
  · obtain rfl : '/' = c := Option.some.inj hslash
    rfl

theorem getLast_text (h : r.Addressable) : ∀ c, r.text.getLast? = some c → isBlank c = false := by
  intro c hc
  rw [text, List.append_cons, List.getLast?_append, Option.or_eq_some_iff, List.getLast?_concat] at hc
  rcases hc with hname | ⟨-, hslash⟩
  · exact h.ends c hname
  · obtain rfl : '/' = c := Option.some.inj hslash
    rfl

section

variable (h : r.Addressable) (hfront : ∀ c ∈ front, isBlank c = true)
  (hback : ∀ c ∈ back, isBlank c = true)
include h hfront hback

/-- Trimming takes off the blanks that were written around the reference, and no more. -/
theorem names : Names (front ++ r.text ++ back) r := by
  have htrimmed : IsTrimmed r.text (front ++ r.text ++ back) :=
    ⟨⟨front, back, rfl, hfront, hback⟩, h.head_text, h.getLast_text⟩
  exact ⟨(isTrimmed_iff.1 htrimmed).symm, h.nameSlash⟩

/-- The first closing bracket is the one that was written behind the reference. -/
theorem closes : ']' ∉ front ++ r.text ++ back := by
  have hblank : isBlank ']' = false := by decide
  have hnotFront : ']' ∉ front := fun hc => by simp [hfront _ hc] at hblank
  have hnotBack : ']' ∉ back := fun hc => by simp [hback _ hc] at hblank
  simp [text, hnotFront, hnotBack, h.spaceCloses, h.nameCloses]

/-- With blanks around it the reference still has no token in it. -/
theorem noToken_bracketed : NoToken (r.bracketed front back) := by
  have hforeign : ∀ c, isBlank c = true ∨ c = '[' ∨ c = ']' → ∀ k : Token, c ∉ k.spelling := by
    rintro c (hc | rfl | rfl) k hk
    · simp [Token.not_blank_of_mem_spelling hk] at hc
    · cases k <;> exact absurd hk (by decide)
    · cases k <;> exact absurd hk (by decide)
  have htext : NoToken r.text := h.noToken.of_infix ⟨['['], [']'], by simp [bracketed, enclose]⟩
  have hbracketed : r.bracketed front back = ('[' :: front) ++ r.text ++ (back ++ [']']) := by
    simp [bracketed, enclose]
  rw [hbracketed]
  refine htext.between (fun c hc => hforeign c ?_) (fun c hc => hforeign c ?_)
  · rcases List.mem_cons.1 hc with hc | hc
    · exact Or.inr (Or.inl hc)
    · exact Or.inl (hfront c hc)
  · rcases List.mem_append.1 hc with hc | hc
    · exact Or.inl (hback c hc)
    · exact Or.inr (Or.inr (List.mem_singleton.1 hc))

/-- A bracketed reference is read as one reference and nothing else. -/
theorem reads : (Decomposition.alone (front ++ r.text ++ back)).Reads (r.bracketed front back) where
  written := by
    simp [Decomposition.alone, Decomposition.text, Layout.fill, writeDates, Layout.write, bracketed]
  noBracketOpens := by
    simp [Decomposition.alone, Layout.stretches, writeDates, Layout.write, Layout.fill]
  noBracketCloses := by
    simpa [Decomposition.alone, Layout.bodies] using h.closes hfront hback
  noBraceOpens := by
    simp [Decomposition.alone, Layout.stretches]
  noBraceCloses := by
    simp [Decomposition.alone, Layout.stretches, Layout.bodies]

end

end Addressable
end Reference

variable {r : Reference} {front back : List Char} {context : Context}

/-- **An addressable property is delivered as it is**, whatever is in its value. -/
theorem resolve_reference (h : r.Addressable) (hfront : ∀ c ∈ front, isBlank c = true)
    (hback : ∀ c ∈ back, isBlank c = true) (policy : MissingProperty) (now : Calendar.Moment)
    {value : String} (hvalue : context.property r.space r.name = some value) :
    (resolve policy (String.ofList (r.bracketed front back)) context now).result = .ok value := by
  have hnames := h.names hfront hback
  have hreads := h.reads hfront hback
  refine resolve_result_iff.2 ⟨.alone (front ++ r.text ++ back), ?_, ⟨?_, ?_⟩, ?_⟩
  · rw [String.toList_ofList, withTokens,
      substitute_of_noToken _ (h.noToken_bracketed hfront hback)]
    exact hreads
  · intro body hbody
    obtain rfl : body = front ++ r.text ++ back := List.mem_singleton.1 hbody
    refine ⟨?_, fun _ r' hr' => ?_⟩
    · rw [hnames.1]
      exact List.mem_append_right _ List.mem_cons_self
    · rw [hr'.unique hnames, hvalue, Option.isSome_some]
  · simp [Decomposition.alone, Layout.stretches, Layout.bodies]
  · have hproperty := propertyText_of_names context hnames
    rw [hvalue] at hproperty
    show value = String.ofList (propertyText context (front ++ r.text ++ back) ++ [])
    rw [hproperty, List.append_nil]
    exact String.ofList_toList.symm

/-! ## Which properties are read -/

namespace Reference

theorem parse_eq_ok_iff {text : List Char} :
    parse text = .ok r ↔ text = r.text ∧ '/' ∉ r.name.toList := by
  rw [← ofText?_eq_some_iff, parse]
  cases ofText? text with
  | none => simp
  | some found => simp

theorem exists_parse_iff {text : List Char} : (∃ r, parse text = .ok r) ↔ '/' ∈ text := by
  rw [← not_iff_not, ← ofText?_eq_none_iff, parse]
  cases ofText? text with
  | none => simp
  | some found => simp

end Reference

/-- Two lookups that agree on all names without a slash. -/
def AgreeWithoutSlash (v w : PropertyLookup) : Prop :=
  ∀ space name, '/' ∉ name.toList → v space name = w space name

section

variable {v w : PropertyLookup} (h : AgreeWithoutSlash v w) (policy : MissingProperty)
include h

theorem resolveReference_congr (context : Context) (body : List Char) :
    resolveReference policy (withProperties context v) body =
      resolveReference policy (withProperties context w) body := by
  rw [resolveReference, resolveReference]
  cases hparse : Reference.parse (trim body) with
  | error e => rfl
  | ok r =>
      -- There is no slash behind the last one, so the lookups agree on the name.
      have hsame : v r.space r.name = w r.space r.name :=
        h r.space r.name (Reference.parse_eq_ok_iff.1 hparse).2
      simp only [lookup, withProperties, hsame]

theorem resolveReferences_congr (context : Context) (p : Pieces) :
    resolveReferences policy (withProperties context v) p =
      resolveReferences policy (withProperties context w) p := by
  induction p with
  | last text => rfl
  | unclosed => rfl
  | more text body rest ih =>
      rw [resolveReferences, resolveReferences, resolveReference_congr h, ih]

/-- A property with a slash in its name makes no difference, to the name or to the trail. -/
theorem resolve_congr (template : String) (context : Context) (now : Calendar.Moment) :
    resolve policy template (withProperties context v) now =
      resolve policy template (withProperties context w) now := by
  simp only [resolve, resolveText, withTokens_withProperties, resolveReferences_congr h]

end

/-! ## All together -/

/-- **Every addressable property is delivered as it is.** A reference that is addressable, with any
blanks just inside its brackets, resolves to the value of the property it names, whatever the value
and whatever else is set: for a message that the property is set on, and for all lookups that give a
value. A text reads as a reference exactly when there is a slash in it; the reference then is the one
whose namespace and name, joined by a slash, are the text, with no slash in the name. So a property
with a slash in its name is read by no template. -/
theorem addressable_properties_are_delivered :
    (∀ r : Reference, r.Addressable → ∀ front back : List Char, (∀ c ∈ front, isBlank c = true) →
      (∀ c ∈ back, isBlank c = true) → ∀ (policy : MissingProperty) (now : Calendar.Moment)
        (value : String),
        (∀ m : Message,
          let set := { m with properties := m.properties.insert r.space r.name value }
          (resolve policy (String.ofList (r.bracketed front back)) set.context now).result =
            .ok value) ∧
        ∀ context : Context, context.property r.space r.name = some value →
          (resolve policy (String.ofList (r.bracketed front back)) context now).result =
            .ok value) ∧
    (∀ text, (∃ r, Reference.parse text = .ok r) ↔ '/' ∈ text) ∧
    (∀ text r, Reference.parse text = .ok r ↔ text = r.text ∧ '/' ∉ r.name.toList) ∧
    ∀ v w : PropertyLookup, AgreeWithoutSlash v w →
      ∀ (policy : MissingProperty) (template : String) (context : Context) (now : Calendar.Moment),
        resolve policy template (withProperties context v) now =
          resolve policy template (withProperties context w) now := by
  refine ⟨fun r h front back hfront hback policy now value => ⟨fun m => ?_, fun context hvalue => ?_⟩,
    fun _ => Reference.exists_parse_iff, fun _ _ => Reference.parse_eq_ok_iff,
    fun v w h policy template context now => resolve_congr h policy template context now⟩
  · refine resolve_reference h hfront hback policy now ?_
    show (m.properties.insert r.space r.name value).get? r.space r.name = some value
    rw [Properties.get?_insert, if_pos ⟨rfl, rfl⟩]
  · exact resolve_reference h hfront hback policy now hvalue

/-- A namespace and a name with brackets, braces, blanks and the beginning of a token in them, set to
a value that looks like a template; and a property with a slash in its name, which is not read. -/
theorem addressable_properties_are_delivered_at_syntax :
    (Reference.Addressable ⟨"[a /\x7b%i", " b\x7d"⟩ ∧
      (resolve .fail "[\t[a /\x7b%i/ b\x7d\u3000]"
        (Message.context
          { id := "m", properties := Properties.empty.insert "[a /\x7b%i" " b\x7d" "[%id]" })
        ⟨⟨0, 0⟩, .utc⟩).result = .ok "[%id]") ∧
    AgreeWithoutSlash (Properties.empty.insert "a" "b/c" "x").get? Properties.empty.get? ∧
    resolve .fail "[a/b/c]" (withProperties (Message.context { id := "m" })
        (Properties.empty.insert "a" "b/c" "x").get?) ⟨⟨0, 0⟩, .utc⟩ =
      resolve .fail "[a/b/c]" (withProperties (Message.context { id := "m" })
        Properties.empty.get?) ⟨⟨0, 0⟩, .utc⟩ := by
  obtain ⟨hdelivered, -, -, hunread⟩ := addressable_properties_are_delivered
  have haddressable : Reference.Addressable ⟨"[a /\x7b%i", " b\x7d"⟩ :=
    ⟨by decide, by decide, by decide, fun c hc => Option.some.inj (hc : some '[' = some c) ▸ rfl,
      fun c hc => Option.some.inj (hc : some '\x7d' = some c) ▸ rfl, by decide⟩
  have hagree : AgreeWithoutSlash (Properties.empty.insert "a" "b/c" "x").get?
      Properties.empty.get? := by
    intro space name hname
    rw [Properties.get?_insert, if_neg]
    rintro ⟨-, rfl⟩
    exact hname (by decide)
  refine ⟨⟨haddressable, ?_⟩, hagree, hunread _ _ hagree _ _ _ _⟩
  exact (hdelivered _ haddressable ['\t'] ['\u3000'] (List.forall_mem_singleton.2 rfl)
    (List.forall_mem_singleton.2 rfl) .fail ⟨⟨0, 0⟩, .utc⟩ "[%id]").1 { id := "m" }

end MessageArchive.Template
