import MessageArchive.Proofs.Audit.Traced
import MessageArchive.Proofs.Text.Layout
import MessageArchive.Template.Resolver

set_option autoImplicit false

/-! # The grammar of templates

Once its tokens are replaced, a template is read as references in brackets with stretches of text
between them, and each of these stretches as dates in braces with stretches of text between them.
This is a layout of layouts. Resolution succeeds exactly on the texts that have such a
decomposition with references and dates that can be replaced, and gives the decomposition filled
with the values of the properties and the dates.

The proof follows the two passes. `resolveReferences_result_iff` and `resolveDatesIn_result_iff`
say what one scan does with a text that is cut at its delimiters; `resolveDates_result_iff` puts
them together, by induction on the layout that the first scan has found.
-/

namespace MessageArchive.Template

open MessageArchive.Audit MessageArchive.Text

/-- References in brackets, with stretches between them in which dates stand in braces. -/
abbrev Decomposition := Layout (Layout (List Char))

/-- A stretch without references, as it is written. -/
def writeDates (s : Layout (List Char)) : List Char := s.write '\x7b' '\x7d'

namespace Decomposition

/-- The decomposition as a text. -/
def text (d : Decomposition) : List Char := d.fill writeDates (enclose '[' ']')

/-- The text is the decomposition written down: no stretch holds an opening bracket and no reference
a closing one, and in each stretch no text holds an opening brace and no date a closing one. -/
structure Reads (d : Decomposition) (text : List Char) : Prop where
  written : d.text = text
  noBracketOpens : ∀ s ∈ d.stretches, '[' ∉ writeDates s
  noBracketCloses : ∀ b ∈ d.bodies, ']' ∉ b
  noBraceOpens : ∀ s ∈ d.stretches, ∀ u ∈ s.stretches, '\x7b' ∉ u
  noBraceCloses : ∀ s ∈ d.stretches, ∀ p ∈ s.bodies, '\x7d' ∉ p

end Decomposition

/-- A body in brackets names a property: its namespace is the text before the last slash, and its
name the text after it. Blanks at either end do not belong to it. -/
def Names (body : List Char) (r : Reference) : Prop := trim body = r.text ∧ '/' ∉ r.name.toList

/-- A reference that can be replaced: there is a slash in it, and when properties have to be set,
the property it names is. -/
structure ReferenceResolves (policy : MissingProperty) (context : Context) (body : List Char) :
    Prop where
  slash : '/' ∈ trim body
  isSet : policy = .fail → ∀ r, Names body r → (context.property r.space r.name).isSome

/-- The value of the property that a body in brackets names, empty where it is not set. -/
def propertyText (context : Context) (body : List Char) : List Char :=
  match Reference.ofText? (trim body) with
  | some r => ((context.property r.space r.name).getD "").toList
  | none => []

/-- A date that can be replaced: its pattern can be written. -/
def DateResolves (now : Calendar.Moment) (body : List Char) : Prop :=
  ∃ date, Calendar.formatDate (trim body) now = .ok date

/-- The moment after the pattern in a body in braces. -/
def dateText (now : Calendar.Moment) (body : List Char) : List Char :=
  match Calendar.formatDate (trim body) now with
  | .ok date => date
  | .error _ => []

namespace Decomposition

/-- All references and all dates can be replaced. -/
structure Resolves (policy : MissingProperty) (context : Context) (now : Calendar.Moment)
    (d : Decomposition) : Prop where
  references : ∀ b ∈ d.bodies, ReferenceResolves policy context b
  dates : ∀ s ∈ d.stretches, ∀ p ∈ s.bodies, DateResolves now p

/-- The decomposition with each reference replaced by the value of its property, and each date by
the moment. -/
def name (context : Context) (now : Calendar.Moment) (d : Decomposition) : List Char :=
  d.fill (fun s => s.fill id (dateText now)) (propertyText context)

end Decomposition

/-! ## References -/

theorem names_iff_ofText? {body : List Char} {r : Reference} :
    Names body r ↔ Reference.ofText? (trim body) = some r :=
  Reference.ofText?_eq_some_iff.symm

/-- A body names one property. -/
theorem Names.unique {body : List Char} {r r' : Reference} (h : Names body r)
    (h' : Names body r') : r = r' := by
  rw [names_iff_ofText?] at h h'
  exact Option.some.inj (h.symm.trans h')

theorem propertyText_of_names (context : Context) {body : List Char} {r : Reference}
    (h : Names body r) :
    propertyText context body = ((context.property r.space r.name).getD "").toList := by
  simp only [propertyText, names_iff_ofText?.1 h]

/-! ### Looking up a property -/

theorem lookup_of_some (policy : MissingProperty) {context : Context} {r : Reference}
    {value : String} (h : context.property r.space r.name = some value) :
    lookup policy context r = do
      Traced.record (.propertyFound r.space r.name)
      Traced.record (.propertyValue value)
      return value.toList := by
  simp only [lookup, h]

theorem lookup_of_none_empty {context : Context} {r : Reference}
    (h : context.property r.space r.name = none) :
    lookup .empty context r = do
      Traced.record (.propertyFound r.space r.name)
      Traced.record (.propertyValue "")
      return [] := by
  simp only [lookup, h]

theorem lookup_of_none_fail {context : Context} {r : Reference}
    (h : context.property r.space r.name = none) :
    lookup .fail context r = (do
      Traced.record (.propertyFound r.space r.name)
      Traced.record (.propertyUnset r.name)
      Traced.fail (.unresolved r.space r.name)) := by
  simp only [lookup, h]

theorem lookup_result_iff {policy : MissingProperty} {context : Context} {r : Reference}
    {value : List Char} :
    (lookup policy context r).result = .ok value ↔
      (policy = .fail → (context.property r.space r.name).isSome) ∧
        value = ((context.property r.space r.name).getD "").toList := by
  cases h : context.property r.space r.name with
  | some found => simp [lookup_of_some policy h, eq_comm]
  | none =>
      cases policy with
      | empty => simp [lookup_of_none_empty h, eq_comm]
      | fail => simp [lookup_of_none_fail h]

theorem resolveReference_result_iff {policy : MissingProperty} {context : Context}
    {body value : List Char} :
    (resolveReference policy context body).result = .ok value ↔
      ReferenceResolves policy context body ∧ value = propertyText context body := by
  simp only [resolveReference, Reference.parse]
  cases h : Reference.ofText? (trim body) with
  | none =>
      have hslash : '/' ∉ trim body := Reference.ofText?_eq_none_iff.1 h
      simp only [Traced.result_fail, reduceCtorEq, false_iff, not_and]
      intro hres
      exact absurd hres.slash hslash
  | some r =>
      have hnames : Names body r := names_iff_ofText?.2 h
      have hslash : '/' ∈ trim body := by
        rw [hnames.1, Reference.text]
        simp
      rw [lookup_result_iff, propertyText_of_names context hnames]
      refine and_congr_left fun _ => ⟨fun hset => ⟨hslash, fun hp r' hr' => ?_⟩, fun hres hp => ?_⟩
      · rw [hr'.unique hnames]
        exact hset hp
      · exact hres.isSet hp r hnames

/-- The segments that the references of a layout leave for the dates. -/
def segments (context : Context) : Layout (List Char) → List Segment
  | .last s => [.template s]
  | .more s b rest => .template s :: .value (propertyText context b) :: segments context rest

theorem resolveReferences_result_iff {policy : MissingProperty} {context : Context} {p : Pieces}
    {segs : List Segment} :
    (resolveReferences policy context p).result = .ok segs ↔
      ∃ l, p.layout? = some l ∧ (∀ b ∈ l.bodies, ReferenceResolves policy context b) ∧
        segs = segments context l := by
  induction p generalizing segs with
  | last s =>
      simp [resolveReferences, Pieces.layout?, Layout.bodies, segments, eq_comm]
  | unclosed => simp [resolveReferences, Pieces.layout?]
  | more s b rest ih =>
      simp only [resolveReferences, Traced.result_bind_eq_ok_iff, resolveReference_result_iff, ih,
        Pieces.layout?, Option.map_eq_some_iff, Traced.result_pure, Except.ok.injEq]
      constructor
      · rintro ⟨value, ⟨hb, rfl⟩, found, ⟨l, hl, hbs, rfl⟩, rfl⟩
        refine ⟨.more s b l, ⟨l, hl, rfl⟩, ?_, rfl⟩
        simpa only [Layout.bodies, List.mem_cons, forall_eq_or_imp] using ⟨hb, hbs⟩
      · rintro ⟨-, ⟨l, hl, rfl⟩, hbs, rfl⟩
        simp only [Layout.bodies, List.mem_cons, forall_eq_or_imp] at hbs
        exact ⟨_, ⟨hbs.1, rfl⟩, _, ⟨l, hl, hbs.2, rfl⟩, rfl⟩

/-! ## Dates -/

theorem resolveDate_result_iff {now : Calendar.Moment} {body date : List Char} :
    (resolveDate now body).result = .ok date ↔
      DateResolves now body ∧ date = dateText now body := by
  simp only [resolveDate, Traced.result_record_bind, DateResolves, dateText]
  cases Calendar.formatDate (trim body) now with
  | error fault => simp
  | ok text => simp [eq_comm]

theorem resolveDatesIn_result_iff {now : Calendar.Moment} {p : Pieces} {out : List Char} :
    (resolveDatesIn now p).result = .ok out ↔
      ∃ l, p.layout? = some l ∧ (∀ b ∈ l.bodies, DateResolves now b) ∧
        out = l.fill id (dateText now) := by
  induction p generalizing out with
  | last s => simp [resolveDatesIn, Pieces.layout?, Layout.bodies, Layout.fill, eq_comm]
  | unclosed => simp [resolveDatesIn, Pieces.layout?]
  | more s b rest ih =>
      simp only [resolveDatesIn, Traced.result_bind_eq_ok_iff, resolveDate_result_iff, ih,
        Pieces.layout?, Option.map_eq_some_iff, Traced.result_pure, Except.ok.injEq]
      constructor
      · rintro ⟨date, ⟨hb, rfl⟩, following, ⟨l, hl, hbs, rfl⟩, rfl⟩
        refine ⟨.more s b l, ⟨l, hl, rfl⟩, ?_, rfl⟩
        simpa only [Layout.bodies, List.mem_cons, forall_eq_or_imp] using ⟨hb, hbs⟩
      · rintro ⟨-, ⟨l, hl, rfl⟩, hbs, rfl⟩
        simp only [Layout.bodies, List.mem_cons, forall_eq_or_imp] at hbs
        exact ⟨_, ⟨hbs.1, rfl⟩, _, ⟨l, hl, hbs.2, rfl⟩, rfl⟩

/-- Dates in a stretch of template text, in terms of the layout that is read in it. -/
theorem resolveDatesIn_ofText_result_iff {now : Calendar.Moment} {s out : List Char} :
    (resolveDatesIn now (Pieces.ofText '\x7b' '\x7d' s)).result = .ok out ↔
      ∃ l : Layout (List Char), l.Reads '\x7b' '\x7d' s ∧ (∀ b ∈ l.bodies, DateResolves now b) ∧
        out = l.fill id (dateText now) := by
  rw [resolveDatesIn_result_iff]
  simp only [Layout.reads_iff_layout?]

/-- The stretches of the layout are the written form of layouts with dates. -/
structure Refines (d : Decomposition) (l : Layout (List Char)) : Prop where
  written : d.map writeDates = l
  reads : ∀ s ∈ d.stretches, s.Reads '\x7b' '\x7d' (writeDates s)

theorem resolveDates_result_iff {context : Context} {now : Calendar.Moment}
    {l : Layout (List Char)} {out : List Char} :
    (resolveDates now (segments context l)).result = .ok out ↔
      ∃ d, Refines d l ∧ (∀ s ∈ d.stretches, ∀ p ∈ s.bodies, DateResolves now p) ∧
        out = d.name context now := by
  induction l generalizing out with
  | last s =>
      simp only [segments, resolveDates, Traced.result_bind_eq_ok_iff, Traced.result_pure,
        resolveDatesIn_ofText_result_iff, Except.ok.injEq, exists_eq_left', List.append_nil]
      constructor
      · rintro ⟨-, ⟨inner, hr, hb, rfl⟩, rfl⟩
        refine ⟨.last inner, ⟨?_, ?_⟩, ?_, rfl⟩
        · simp only [Layout.map, writeDates, hr.written]
        · simpa [Layout.stretches, writeDates, hr.written] using hr
        · simpa [Layout.stretches] using hb
      · rintro ⟨d, ⟨hw, hr⟩, hd, rfl⟩
        -- The layouts have the same shape, since the one is the other written down.
        cases d with
        | more s' b' rest' => simp [Layout.map] at hw
        | last inner =>
            simp only [Layout.map, Layout.last.injEq] at hw
            simp only [Layout.stretches, List.mem_singleton, forall_eq] at hr hd
            exact ⟨_, ⟨inner, hw ▸ hr, hd, rfl⟩, rfl⟩
  | more s b rest ih =>
      simp only [segments, resolveDates, Traced.result_bind_eq_ok_iff, Traced.result_pure,
        resolveDatesIn_ofText_result_iff, ih, Except.ok.injEq]
      constructor
      · rintro ⟨-, ⟨inner, hr, hb, rfl⟩, -, ⟨-, ⟨d, ⟨hw, hrs⟩, hd, rfl⟩, rfl⟩, rfl⟩
        refine ⟨.more inner b d, ⟨?_, ?_⟩, ?_, ?_⟩
        · simp only [Layout.map, writeDates, hr.written]
          rw [← hw]
        · simp only [Layout.stretches, List.mem_cons, forall_eq_or_imp]
          exact ⟨by rw [writeDates, hr.written]; exact hr, hrs⟩
        · simp only [Layout.stretches, List.mem_cons, forall_eq_or_imp]
          exact ⟨hb, hd⟩
        · simp only [Decomposition.name, Layout.fill, List.append_assoc]
      · rintro ⟨d, ⟨hw, hr⟩, hd, rfl⟩
        cases d with
        | last inner => simp [Layout.map] at hw
        | more inner b' rest' =>
            simp only [Layout.map, Layout.more.injEq] at hw
            obtain ⟨hs, rfl, hrest⟩ := hw
            simp only [Layout.stretches, List.mem_cons, forall_eq_or_imp] at hr hd
            refine ⟨_, ⟨inner, hs ▸ hr.1, hd.1, rfl⟩, _,
              ⟨_, ⟨rest', ⟨hrest, hr.2⟩, hd.2, rfl⟩, rfl⟩, ?_⟩
            simp only [Decomposition.name, Layout.fill, List.append_assoc]

/-! ## Both passes -/

/-- A decomposition is read in a text when it refines the layout that is read in it. -/
theorem Decomposition.reads_iff_refines {d : Decomposition} {text : List Char} :
    d.Reads text ↔ ∃ l : Layout (List Char), l.Reads '[' ']' text ∧ Refines d l := by
  constructor
  · rintro ⟨hw, hbo, hbc, hdo, hdc⟩
    refine ⟨d.map writeDates, ⟨?_, ?_, ?_⟩, rfl, fun s hs => ⟨rfl, hdo s hs, hdc s hs⟩⟩
    · rw [Layout.write, Layout.fill_map]
      exact hw
    · simpa only [Layout.stretches_map, List.forall_mem_map] using hbo
    · simpa only [Layout.bodies_map] using hbc
  · rintro ⟨l, ⟨hw, hs, hb⟩, rfl, hr⟩
    refine ⟨?_, ?_, ?_, fun s h => (hr s h).stretches, fun s h => (hr s h).bodies⟩
    · rw [Layout.write, Layout.fill_map] at hw
      exact hw
    · simpa only [Layout.stretches_map, List.forall_mem_map] using hs
    · simpa only [Layout.bodies_map] using hb

/-- A text has at most one decomposition: the scan for brackets leaves no choice about the stretches
between them, nor does the scan for braces about what is in a stretch. -/
theorem Decomposition.Reads.unique {d d' : Decomposition} {text : List Char}
    (h : d.Reads text) (h' : d'.Reads text) : d = d' := by
  obtain ⟨l, hl, hw, hr⟩ := reads_iff_refines.1 h
  obtain ⟨l', hl', hw', hr'⟩ := reads_iff_refines.1 h'
  -- The outer layouts agree, so the stretches agree as texts, and each text has one layout.
  have hsame : d.map writeDates = d'.map writeDates := by rw [hw, hw', hl.unique hl']
  refine Layout.map_inj_on hsame fun s hs s' hs' heq => ?_
  have h2 : s'.Reads '\x7b' '\x7d' (writeDates s) := by
    rw [heq]
    exact hr' s' hs'
  exact (hr s hs).unique h2

theorem Refines.bodies {d : Decomposition} {l : Layout (List Char)} (h : Refines d l) :
    l.bodies = d.bodies := by
  rw [← h.written, Layout.bodies_map]

theorem resolveText_result_iff {policy : MissingProperty} {context : Context}
    {now : Calendar.Moment} {text out : List Char} :
    (resolveText policy context now text).result = .ok out ↔
      ∃ d : Decomposition, d.Reads text ∧ d.Resolves policy context now ∧
        out = d.name context now := by
  simp only [resolveText, Traced.result_bind_eq_ok_iff, resolveReferences_result_iff,
    ← Layout.reads_iff_layout?, Decomposition.reads_iff_refines]
  constructor
  · rintro ⟨-, ⟨l, hl, hrefs, rfl⟩, hdates⟩
    obtain ⟨d, hd, hds, rfl⟩ := resolveDates_result_iff.1 hdates
    exact ⟨d, ⟨l, hl, hd⟩, ⟨hd.bodies ▸ hrefs, hds⟩, rfl⟩
  · rintro ⟨d, ⟨l, hl, hd⟩, ⟨hrefs, hds⟩, rfl⟩
    exact ⟨_, ⟨l, hl, hd.bodies ▸ hrefs, rfl⟩, resolveDates_result_iff.2 ⟨d, hd, hds, rfl⟩⟩

theorem resolve_result_iff {policy : MissingProperty} {template : String} {context : Context}
    {now : Calendar.Moment} {name : String} :
    (resolve policy template context now).result = .ok name ↔
      ∃ d : Decomposition, d.Reads (withTokens context now template.toList) ∧
        d.Resolves policy context now ∧ name = String.ofList (d.name context now) := by
  simp only [resolve, Traced.result_bind_eq_ok_iff, resolveText_result_iff, Traced.result_pure,
    Except.ok.injEq]
  constructor
  · rintro ⟨-, ⟨d, hr, hd, rfl⟩, rfl⟩
    exact ⟨d, hr, hd, rfl⟩
  · rintro ⟨d, hr, hd, rfl⟩
    exact ⟨_, ⟨d, hr, hd, rfl⟩, rfl⟩

/-- **Templates have a grammar.** Let the text be the template with its tokens replaced, the
timestamp by what the timestamp pattern writes. Resolution succeeds exactly when the text has a
decomposition whose references and dates can all be replaced. A text has at most one decomposition,
and the name is the decomposition with references and dates replaced and all else kept. -/
theorem resolve_reads_grammar (policy : MissingProperty) (template : String) (context : Context)
    (now : Calendar.Moment) :
    Calendar.formatDate Calendar.timestampPattern now = .ok (Token.value context now .timestamp) ∧
    ((∃ name, (resolve policy template context now).result = .ok name) ↔
      ∃ d : Decomposition, d.Reads (withTokens context now template.toList) ∧
        d.Resolves policy context now) ∧
    (∀ d d' : Decomposition, d.Reads (withTokens context now template.toList) →
      d'.Reads (withTokens context now template.toList) → d = d') ∧
    ∀ d : Decomposition, d.Reads (withTokens context now template.toList) →
      d.Resolves policy context now →
      (resolve policy template context now).result =
        .ok (String.ofList (d.name context now)) := by
  refine ⟨Calendar.formatDate_timestampPattern now, ⟨?_, ?_⟩, ?_, ?_⟩
  · rintro ⟨name, h⟩
    obtain ⟨d, hr, hd, -⟩ := resolve_result_iff.1 h
    exact ⟨d, hr, hd⟩
  · rintro ⟨d, hr, hd⟩
    exact ⟨_, resolve_result_iff.2 ⟨d, hr, hd, rfl⟩⟩
  · intro d d' h h'
    exact h.unique h'
  · intro d hr hd
    exact resolve_result_iff.2 ⟨d, hr, hd, rfl⟩

end MessageArchive.Template
