import MessageArchive.Proofs.Template.Failures
import MessageArchive.Proofs.Template.LiteralValues

set_option autoImplicit false

/-! # Properties that have to be set

A property that is not set is the empty text under one policy and an error under the other. Nothing
else depends on the policy: the strict run does what the lenient one does, event by event, or it
stops at a property that is not set (`SameUnlessUnset`). This relation is kept when further work
follows, so it holds of whole resolutions as it holds of one look-up.

Which property the strict run stops at is read off the text: the first one, from the left, that is
not set (`FirstUnset`).
-/

namespace MessageArchive.Template

open MessageArchive.Audit MessageArchive.Text

/-! ## Two policies -/

/-- The strict work is the lenient work, or it stops at a property that is not set. -/
def SameUnlessUnset {α : Type} (strict lenient : Traced α) : Prop :=
  strict = lenient ∨ ∃ space name, strict.result = .error (.unresolved space name)

namespace SameUnlessUnset

variable {α β : Type} {strict lenient : Traced α} {f g : α → Traced β}

protected theorem refl (x : Traced α) : SameUnlessUnset x x := Or.inl rfl

protected theorem bind (h : SameUnlessUnset strict lenient)
    (hfg : ∀ a, SameUnlessUnset (f a) (g a)) :
    SameUnlessUnset (strict >>= f) (lenient >>= g) := by
  rcases h with rfl | ⟨space, name, hunset⟩
  · cases hresult : strict.result with
    | error e =>
        refine Or.inl ?_
        rw [Traced.bind_of_error f hresult, Traced.bind_of_error g hresult]
    | ok a =>
        rw [Traced.bind_of_ok f hresult, Traced.bind_of_ok g hresult]
        rcases hfg a with hsame | ⟨space, name, hunset⟩
        · exact Or.inl (by rw [hsame])
        · exact Or.inr ⟨space, name, hunset⟩
  · refine Or.inr ⟨space, name, ?_⟩
    rw [Traced.bind_of_error f hunset]

/-- Where no property is found missing, the two are the same. -/
theorem eq_of_ne (h : SameUnlessUnset strict lenient)
    (hne : ∀ space name, strict.result ≠ .error (.unresolved space name)) : strict = lenient := by
  rcases h with hsame | ⟨space, name, hunset⟩
  · exact hsame
  · exact absurd hunset (hne space name)

end SameUnlessUnset

theorem lookup_sameUnlessUnset (context : Context) (r : Reference) :
    SameUnlessUnset (lookup .fail context r) (lookup .empty context r) := by
  cases h : context.property r.space r.name with
  | some value =>
      refine Or.inl ?_
      rw [lookup_of_some .fail h, lookup_of_some .empty h]
  | none => exact Or.inr ⟨r.space, r.name, lookup_error_iff.2 ⟨rfl, h, rfl⟩⟩

theorem resolveReference_sameUnlessUnset (context : Context) (body : List Char) :
    SameUnlessUnset (resolveReference .fail context body)
      (resolveReference .empty context body) := by
  unfold resolveReference
  cases Reference.parse (trim body) with
  | error e => exact .refl _
  | ok r => exact lookup_sameUnlessUnset context r

theorem resolveReferences_sameUnlessUnset (context : Context) (p : Pieces) :
    SameUnlessUnset (resolveReferences .fail context p) (resolveReferences .empty context p) := by
  induction p with
  | last s => exact .refl _
  | unclosed => exact .refl _
  | more s body rest ih =>
      unfold resolveReferences
      refine (resolveReference_sameUnlessUnset context body).bind fun value => ?_
      exact ih.bind fun segs => .refl _

theorem resolve_sameUnlessUnset (template : String) (context : Context) (now : Calendar.Moment) :
    SameUnlessUnset (resolve .fail template context now) (resolve .empty template context now) := by
  unfold resolve resolveText
  refine SameUnlessUnset.bind ?_ fun name => .refl _
  exact (resolveReferences_sameUnlessUnset context _).bind fun segs => .refl _

/-! ## The property that is not set -/

/-- The body in brackets names a property that is set. -/
def NamesSet (context : Context) (body : List Char) : Prop :=
  ∃ r, Names body r ∧ (context.property r.space r.name).isSome

/-- Of the references in the text, `r` is the first that is not set: there is a pair of brackets
that names it, and all pairs of brackets to the left name properties that are set. -/
inductive FirstUnset (context : Context) : List Char → Reference → Prop
  | intro {front : Layout (List Char)} {body after : List Char} {r : Reference}
      (left : Resolved '[' ']' (NamesSet context) front) (closed : ']' ∉ body)
      (names : Names body r) (unset : context.property r.space r.name = none) :
      FirstUnset context (front.write '[' ']' ++ '[' :: (body ++ ']' :: after)) r

theorem referenceResolves_fail_iff {context : Context} {body : List Char} :
    ReferenceResolves .fail context body ↔ NamesSet context body := by
  constructor
  · rintro ⟨hslash, hset⟩
    cases h : Reference.ofText? (trim body) with
    | none => exact absurd hslash (Reference.ofText?_eq_none_iff.1 h)
    | some r =>
        have hnames : Names body r := names_iff_ofText?.2 h
        exact ⟨r, hnames, hset rfl r hnames⟩
  · rintro ⟨r, hnames, hset⟩
    refine ⟨?_, fun _ r' hnames' => ?_⟩
    · rw [hnames.1, Reference.text]
      simp
    · rw [names_iff_ofText?] at hnames hnames'
      obtain rfl := Option.some.inj (hnames.symm.trans hnames')
      exact hset

theorem Resolved.congr {opener closer : Char} {resolves resolves' : List Char → Prop}
    {front : Layout (List Char)} (h : Resolved opener closer resolves front)
    (hiff : ∀ b, resolves b → resolves' b) : Resolved opener closer resolves' front :=
  ⟨h.stretches, h.bodies, fun b hb => hiff b (h.resolve b hb)⟩

theorem referencesFail_unset_iff {context : Context} {text : List Char} {r : Reference} :
    ReferencesFail .fail context text (.unresolved r.space r.name) ↔ FirstUnset context text r := by
  constructor
  · rintro ⟨front, behind, rfl, hresolved, hfault⟩
    have hleft := hresolved.congr fun b => referenceResolves_fail_iff.1
    generalize he : ArchiveError.unresolved r.space r.name = e at hfault
    cases hfault with
    | unclosed _ => cases he
    | body hclosed hfails =>
        cases hfails with
        | noSlash _ => cases he
        | @unset r' _ hnames hunset =>
            obtain ⟨hspace, hname⟩ := ArchiveError.unresolved.inj he
            obtain rfl : r = r' := by
              cases r
              cases r'
              rw [Reference.mk.injEq]
              exact ⟨hspace, hname⟩
            exact .intro hleft hclosed hnames hunset
  · rintro ⟨hleft, hclosed, hnames, hunset⟩
    exact ⟨_, _, rfl, hleft.congr fun b => referenceResolves_fail_iff.2,
      .body hclosed (.unset rfl hnames hunset)⟩

/-- What is wrong with a date is a fault of the template. -/
theorem DatesFail.malformed {now : Calendar.Moment} {stretches : List (List Char)}
    {e : ArchiveError} (h : DatesFail now stretches e) : ∃ fault, e = .malformed fault := by
  obtain ⟨-, s, -, -, -, front, behind, -, -, hfault⟩ := h
  cases hfault with
  | unclosed _ => exact ⟨_, rfl⟩
  | body _ hfails =>
      obtain ⟨_⟩ := hfails
      exact ⟨_, rfl⟩

/-- Resolution finds a property missing when the pass over the references does. -/
theorem resolveText_unresolved_iff {policy : MissingProperty} {context : Context}
    {now : Calendar.Moment} {text : List Char} {space name : String} :
    (resolveText policy context now text).result = .error (.unresolved space name) ↔
      ReferencesFail policy context text (.unresolved space name) := by
  constructor
  · intro h
    rcases resolveText_error_cases h with hrefs | ⟨l, -, -, hdates⟩
    · exact hrefs
    · obtain ⟨fault, hfault⟩ := hdates.malformed
      cases hfault
  · intro h
    exact resolveText_of_referencesFail h now

theorem resolve_fail_unresolved_iff {template : String} {context : Context}
    {now : Calendar.Moment} {r : Reference} :
    (resolve .fail template context now).result = .error (.unresolved r.space r.name) ↔
      FirstUnset context (withTokens context now template.toList) r := by
  rw [resolve_error_iff, resolveText_unresolved_iff, referencesFail_unset_iff]

/-- Where properties need not be set, none is found missing. -/
theorem resolve_empty_ne_unresolved {template : String} {context : Context}
    {now : Calendar.Moment} (space name : String) :
    (resolve .empty template context now).result ≠ .error (.unresolved space name) := by
  intro h
  rw [resolve_error_iff, resolveText_unresolved_iff] at h
  obtain ⟨front, behind, -, -, hfault⟩ := h
  generalize he : ArchiveError.unresolved space name = e at hfault
  cases hfault with
  | unclosed _ => cases he
  | body _ hfails =>
      cases hfails with
      | noSlash _ => cases he
      | unset hstrict _ _ => cases hstrict

/-! ## Properties set to the empty text -/

/-- The second lookup is the first one with some properties set, to the empty text, that are not set
in the first. -/
def SetToEmpty (v w : PropertyLookup) : Prop :=
  ∀ space name, w space name = v space name ∨ v space name = none ∧ w space name = some ""

theorem lookup_empty_of_setToEmpty {context : Context} {property : PropertyLookup}
    (h : SetToEmpty context.property property) (r : Reference) :
    lookup .empty (withProperties context property) r = lookup .empty context r := by
  rcases h r.space r.name with hsame | ⟨hunset, hempty⟩
  · have hsame' : (withProperties context property).property r.space r.name =
        context.property r.space r.name := hsame
    simp only [lookup, hsame']
  · have hempty' : (withProperties context property).property r.space r.name = some "" := hempty
    rw [lookup_of_some .empty hempty', lookup_of_none_empty hunset]
    rfl

theorem resolveReferences_empty_of_setToEmpty {context : Context} {property : PropertyLookup}
    (h : SetToEmpty context.property property) (p : Pieces) :
    resolveReferences .empty (withProperties context property) p =
      resolveReferences .empty context p := by
  induction p with
  | last s => rfl
  | unclosed => rfl
  | more s body rest ih =>
      have hbody : resolveReference .empty (withProperties context property) body =
          resolveReference .empty context body := by
        unfold resolveReference
        cases Reference.parse (trim body) with
        | error e => rfl
        | ok r => exact lookup_empty_of_setToEmpty h r
      rw [resolveReferences, resolveReferences, hbody, ih]

theorem resolve_empty_of_setToEmpty {context : Context} {property : PropertyLookup}
    (h : SetToEmpty context.property property) (template : String) (now : Calendar.Moment) :
    resolve .empty template (withProperties context property) now =
      resolve .empty template context now := by
  have htokens : withTokens (withProperties context property) now template.toList =
      withTokens context now template.toList :=
    withTokens_withProperties context property now template.toList
  rw [resolve, resolve, resolveText, resolveText, htokens, resolveReferences_empty_of_setToEmpty h]

/-! ## Resolution under both policies -/

/-- How a resolution that needs all properties set compares with one that does not. -/
structure OnlyUnsetDiffers (template : String) (context : Context) (now : Calendar.Moment) :
    Prop where
  /-- What succeeds in the strict run succeeds in the lenient one, and leaves the same trail. -/
  ok_fail : ∀ name, (resolve .fail template context now).result = .ok name →
    (resolve .empty template context now).result = .ok name ∧
      (resolve .empty template context now).trail = (resolve .fail template context now).trail
  /-- What succeeds in the lenient run gives the same name in the strict one, or a property is found
  missing. -/
  ok_empty : ∀ name, (resolve .empty template context now).result = .ok name →
    (resolve .fail template context now).result = .ok name ∨
      ∃ space n, (resolve .fail template context now).result = .error (.unresolved space n)
  /-- A fault of the template that the strict run reports is reported by the lenient one. -/
  malformed : ∀ fault, (resolve .fail template context now).result = .error (.malformed fault) →
    (resolve .empty template context now).result = .error (.malformed fault)
  /-- What the strict run finds missing is the first property of the text that is not set. -/
  unresolved : ∀ r : Reference,
    (resolve .fail template context now).result = .error (.unresolved r.space r.name) ↔
      FirstUnset context (withTokens context now template.toList) r
  /-- The lenient run never finds a property missing. -/
  lenient : ∀ space name,
    (resolve .empty template context now).result ≠ .error (.unresolved space name)
  /-- It does not tell a property that is not set from one that is empty. -/
  setToEmpty : ∀ property, SetToEmpty context.property property →
    resolve .empty template (withProperties context property) now =
      resolve .empty template context now

/-- **The policy on missing properties decides about missing properties and nothing else.** A strict
resolution is the lenient one, with its name, its error and its trail, unless it stops at the first
property that is not set. -/
theorem strict_differs_only_where_unset (template : String) (context : Context)
    (now : Calendar.Moment) : OnlyUnsetDiffers template context now := by
  have hsame := resolve_sameUnlessUnset template context now
  refine ⟨fun name h => ?_, fun name h => ?_, fun fault h => ?_,
    fun r => resolve_fail_unresolved_iff, resolve_empty_ne_unresolved,
    fun property h => resolve_empty_of_setToEmpty h template now⟩
  · have heq := hsame.eq_of_ne fun space n hunset => by simp [h] at hunset
    rw [← heq]
    exact ⟨h, rfl⟩
  · rcases hsame with heq | hunset
    · rw [heq]
      exact Or.inl h
    · exact Or.inr hunset
  · have heq := hsame.eq_of_ne fun space n hunset => by simp [h] at hunset
    rw [← heq]
    exact h

end MessageArchive.Template
