import MessageArchive.Proofs.Template.Trails

set_option autoImplicit false

/-! # Templates that read no clock

A moment gets into a name by the timestamp token, or by a date in braces. Where a template has
neither (`ReadsNoClock`), its name is the same at every moment (`ReadsNoClock.ignoresClock`). Braces
count where they stand in the text with its tokens replaced, since that is where dates are looked
for; inside a reference and in the value of a property they are text.
-/

namespace MessageArchive.Template

open MessageArchive.Audit MessageArchive.Text

/-- The template gives the same name, or the same error, at every moment. -/
def IgnoresClock (policy : MissingProperty) (context : Context) (template : String) : Prop :=
  ∀ now now', (resolve policy template context now).result =
    (resolve policy template context now').result

/-- The timestamp is not among the tokens of the template, and no date begins between its
references. -/
structure ReadsNoClock (context : Context) (template : String) : Prop where
  noTimestamp : Piece.token .timestamp ∉ scan template.toList
  noDate : ∀ now r, Reading.Of '[' ']' r (withTokens context now template.toList) →
    ∀ s ∈ r.stretches, '\x7b' ∉ s

variable {policy : MissingProperty} {context : Context}

theorem withTokens_of_no_timestamp {template : List Char}
    (h : Piece.token .timestamp ∉ scan template) (now now' : Calendar.Moment) :
    withTokens context now template = withTokens context now' template := by
  unfold withTokens substitute
  refine List.flatMap_congr fun piece hpiece => ?_
  cases piece with
  | copied c => rfl
  | token k =>
      cases k with
      | timestamp => exact absurd hpiece h
      | _ => rfl

/-- Where no stretch of template text has a brace, there is no date to replace. -/
theorem resolveDates_of_no_brace {segments : List Segment}
    (h : ∀ s ∈ templates segments, '\x7b' ∉ s) (now now' : Calendar.Moment) :
    resolveDates now segments = resolveDates now' segments := by
  induction segments with
  | nil => rfl
  | cons segment rest ih =>
      cases segment with
      | value text =>
          rw [resolveDates, resolveDates, ih h]
      | template text =>
          have htext : Pieces.ofText '\x7b' '\x7d' text = .last text :=
            Pieces.ofText_of_absent (cut_eq_absent_iff.2 (h text List.mem_cons_self))
          rw [resolveDates, resolveDates, htext, resolveDatesIn, resolveDatesIn,
            ih fun s hs => h s (List.mem_cons_of_mem _ hs)]

theorem resolveText_of_no_brace {text : List Char} {r : Reading} (hread : r.Of '[' ']' text)
    (h : ∀ s ∈ r.stretches, '\x7b' ∉ s) (now now' : Calendar.Moment) :
    resolveText policy context now text = resolveText policy context now' text := by
  obtain ⟨slots, hslots⟩ := exists_forall₂ Slot.exists_of r.bodies
  have hreferences := (resolveReferences_of_reading policy context hslots).templates
  rw [resolveText, resolveText, hread.pieces]
  cases hresult : (resolveReferences policy context r.pieces).result with
  | error e => rw [Traced.bind_of_error _ hresult, Traced.bind_of_error _ hresult]
  | ok segments =>
      rw [Traced.bind_of_ok _ hresult, Traced.bind_of_ok _ hresult,
        resolveDates_of_no_brace (hreferences segments hresult ▸ h) now now']

/-- A template that reads no clock gives one name at all moments. -/
theorem ReadsNoClock.ignoresClock {template : String} (h : ReadsNoClock context template) :
    IgnoresClock policy context template := by
  intro now now'
  obtain ⟨r, hread⟩ := Reading.exists_of '[' ']' (withTokens context now template.toList)
  rw [resolve, resolve, ← withTokens_of_no_timestamp h.noTimestamp now now',
    resolveText_of_no_brace hread (h.noDate now r hread) now now']

end MessageArchive.Template
