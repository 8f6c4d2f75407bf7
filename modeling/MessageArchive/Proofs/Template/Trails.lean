import MessageArchive.Proofs.Template.Grammar
import MessageArchive.Proofs.Text.Reading

set_option autoImplicit false

/-! # The trails that templates leave

What resolution records is told from how the template is read, without the passes that resolve it:
references are recorded from left to right, up to and including the first that does not resolve
(`upToFirst`), and dates likewise, if all references have resolved.

A template that does not resolve is read as well as one that does, so the readings here may end at
a bracket or a brace that is never closed. A brace that is not closed ends the whole pass, also for
the dates in the stretches behind it (`datesRead`).
-/

namespace MessageArchive.Template

open MessageArchive.Audit MessageArchive.Text

/-! ## Up to the first -/

/-- The elements of a list up to and including the first that does not pass. -/
def upToFirst {α : Type} (passes : α → Bool) : List α → List α
  | [] => []
  | x :: rest => x :: if passes x then upToFirst passes rest else []

theorem upToFirst_append {α : Type} (passes : α → Bool) (l m : List α) :
    upToFirst passes (l ++ m) =
      upToFirst passes l ++ if l.all passes then upToFirst passes m else [] := by
  induction l with
  | nil => rfl
  | cons x rest ih =>
      rw [List.cons_append, upToFirst, upToFirst, ih, List.all_cons]
      cases passes x with
      | false => rfl
      | true => rfl

/-! ## References -/

/-- What stands in a pair of brackets. -/
inductive Slot where
  | reference (r : Reference)
  /-- Something without a slash, which is no reference. -/
  | other
  deriving DecidableEq, Repr

namespace Slot

/-- The slot that a body in brackets is. -/
def Of : Slot → List Char → Prop
  | .reference r, body => Names body r
  | .other, body => '/' ∉ trim body

/-- Whether there is a value for the slot. -/
def resolves (policy : MissingProperty) (context : Context) : Slot → Bool
  | .reference r => policy == .empty || (context.property r.space r.name).isSome
  | .other => false

/-- What is recorded of a slot. -/
def entries (policy : MissingProperty) (context : Context) : Slot → List Entry
  | .other => []
  | .reference r =>
      ⟨context.id, .success, "found dynamic property " ++ r.name ++ ", namespace " ++ r.space⟩ ::
        match context.property r.space r.name, policy with
        | some value, _ => [⟨context.id, .success, "dynamic property has value [" ++ value ++ "]"⟩]
        | none, .empty => [⟨context.id, .success, "dynamic property has value []"⟩]
        | none, .fail => [⟨context.id, .error, "dynamic property " ++ r.name ++ " is not set"⟩]

theorem exists_of (body : List Char) : ∃ slot : Slot, slot.Of body := by
  cases h : Reference.ofText? (trim body) with
  | none => exact ⟨.other, Reference.ofText?_eq_none_iff.1 h⟩
  | some r => exact ⟨.reference r, names_iff_ofText?.2 h⟩

theorem Of.parse {slot : Slot} {body : List Char} (h : slot.Of body) :
    Reference.ofText? (trim body) =
      match slot with
      | .reference r => some r
      | .other => none := by
  cases slot with
  | reference r => exact names_iff_ofText?.1 h
  | other => exact Reference.ofText?_eq_none_iff.2 h

theorem Of.unique {slot slot' : Slot} {body : List Char} (h : slot.Of body) (h' : slot'.Of body) :
    slot = slot' := by
  have hparse := h.parse.symm.trans h'.parse
  cases slot with
  | reference r =>
      cases slot' with
      | reference r' => rw [Option.some.inj hparse]
      | other => cases hparse
  | other =>
      cases slot' with
      | reference r' => cases hparse
      | other => rfl

end Slot

/-- What looking up a property leaves behind, and whether it finds a value. -/
theorem lookup_of_slot (policy : MissingProperty) (context : Context) (r : Reference) :
    entries context.id (lookup policy context r).trail =
        (Slot.reference r).entries policy context ∧
      (lookup policy context r).result.isOk = (Slot.reference r).resolves policy context := by
  cases hset : context.property r.space r.name with
  | some value =>
      rw [lookup_of_some policy hset]
      simp only [Slot.entries, Slot.resolves, hset, Option.isSome_some, Bool.or_true]
      exact ⟨rfl, rfl⟩
  | none =>
      cases policy with
      | empty =>
          rw [lookup_of_none_empty hset]
          simp only [Slot.entries, hset]
          exact ⟨rfl, rfl⟩
      | fail =>
          rw [lookup_of_none_fail hset]
          simp only [Slot.entries, Slot.resolves, hset]
          exact ⟨rfl, rfl⟩

theorem resolveReference_of_slot (policy : MissingProperty) (context : Context) {slot : Slot}
    {body : List Char} (h : slot.Of body) :
    entries context.id (resolveReference policy context body).trail = slot.entries policy context ∧
      (resolveReference policy context body).result.isOk = slot.resolves policy context := by
  rw [resolveReference, Reference.parse, h.parse]
  cases slot with
  | reference r => exact lookup_of_slot policy context r
  | other => exact ⟨rfl, rfl⟩

/-- The stretches of template text among the segments. -/
def templates : List Segment → List (List Char)
  | [] => []
  | .template text :: rest => text :: templates rest
  | .value _ :: rest => templates rest

/-- What the pass over the references leaves behind, and what it leaves for the dates. -/
structure ReferencesRead (policy : MissingProperty) (context : Context) (r : Reading)
    (slots : List Slot) (x : Traced (List Segment)) : Prop where
  trail : entries context.id x.trail =
    (upToFirst (Slot.resolves policy context) slots).flatMap (Slot.entries policy context)
  isOk : x.result.isOk = (r.isClosed && slots.all (Slot.resolves policy context))
  templates : ∀ segments, x.result = .ok segments → templates segments = r.stretches

theorem resolveReferences_of_reading (policy : MissingProperty) (context : Context) {r : Reading}
    {slots : List Slot} (h : List.Forall₂ Slot.Of slots r.bodies) :
    ReferencesRead policy context r slots (resolveReferences policy context r.pieces) := by
  induction r generalizing slots with
  | last s =>
      obtain rfl := List.forall₂_nil_right_iff.1 h
      refine ⟨rfl, rfl, fun segments hsegments => ?_⟩
      obtain rfl := Except.ok.inj hsegments
      rfl
  | unclosed s rest =>
      obtain rfl := List.forall₂_nil_right_iff.1 h
      exact ⟨rfl, rfl, fun segments hsegments => by cases hsegments⟩
  | more s body rest ih =>
      obtain ⟨slot, slots, hslot, hslots, rfl⟩ := List.forall₂_cons_right_iff.1 h
      obtain ⟨htrail, hok⟩ := resolveReference_of_slot policy context hslot
      obtain ⟨htrails, hoks, hstretches⟩ := ih hslots
      rw [Reading.pieces, resolveReferences]
      refine ⟨?_, ?_, fun segments hsegments => ?_⟩
      · rw [Traced.entries_andThen, htrail, hok, htrails, upToFirst, List.flatMap_cons]
        cases slot.resolves policy context with
        | false => rfl
        | true => rfl
      · rw [Traced.isOk_andThen, hok, hoks, Reading.isClosed, List.all_cons, Bool.and_left_comm]
      · obtain ⟨value, -, hsegments⟩ := Traced.result_bind_eq_ok_iff.1 hsegments
        obtain ⟨found, hfound, hsegments⟩ := Traced.result_bind_eq_ok_iff.1 hsegments
        obtain rfl := Except.ok.inj hsegments
        rw [Template.templates, Template.templates, hstretches found hfound, Reading.stretches]

/-! ## Dates -/

/-- Whether the pattern in a pair of braces can be written. -/
def dateResolves (now : Calendar.Moment) (body : List Char) : Bool :=
  (Calendar.formatDate (trim body) now).isOk

/-- What is recorded of a date. -/
def dateEntry (context : Context) (body : List Char) : Entry :=
  ⟨context.id, .success, "found date format " ++ String.ofList (trim body)⟩

theorem resolveDate_trail (now : Calendar.Moment) (context : Context) (body : List Char) :
    entries context.id (resolveDate now body).trail = [dateEntry context body] ∧
      (resolveDate now body).result.isOk = dateResolves now body := by
  rw [resolveDate, Traced.bind_of_ok _ (Traced.result_record _), dateResolves]
  cases Calendar.formatDate (trim body) now with
  | ok date => exact ⟨rfl, rfl⟩
  | error fault => exact ⟨rfl, rfl⟩

/-- What the dates of a list leave behind. -/
def dateEntries (now : Calendar.Moment) (context : Context) (bodies : List (List Char)) :
    List Entry :=
  (upToFirst (dateResolves now) bodies).map (dateEntry context)

theorem dateEntries_append (now : Calendar.Moment) (context : Context) (l m : List (List Char)) :
    dateEntries now context (l ++ m) = dateEntries now context l ++
      if l.all (dateResolves now) then dateEntries now context m else [] := by
  rw [dateEntries, upToFirst_append, List.map_append]
  cases l.all (dateResolves now) with
  | false => rfl
  | true => rfl

theorem dateEntries_cons (now : Calendar.Moment) (context : Context) (body : List Char)
    (rest : List (List Char)) :
    dateEntries now context (body :: rest) = dateEntry context body ::
      if dateResolves now body then dateEntries now context rest else [] := by
  rw [dateEntries, upToFirst, List.map_cons]
  cases dateResolves now body with
  | false => rfl
  | true => rfl

theorem resolveDatesIn_of_reading (now : Calendar.Moment) (context : Context) (r : Reading) :
    entries context.id (resolveDatesIn now r.pieces).trail = dateEntries now context r.bodies ∧
      (resolveDatesIn now r.pieces).result.isOk =
        (r.isClosed && r.bodies.all (dateResolves now)) := by
  induction r with
  | last s => exact ⟨rfl, rfl⟩
  | unclosed s rest => exact ⟨rfl, rfl⟩
  | more s body rest ih =>
      obtain ⟨htrails, hoks⟩ := ih
      obtain ⟨htrail, hok⟩ := resolveDate_trail now context body
      rw [Reading.pieces, resolveDatesIn]
      refine ⟨?_, ?_⟩
      · rw [Traced.entries_andThen, htrail, hok, htrails, Reading.bodies, dateEntries_cons]
        rfl
      · rw [Traced.isOk_andThen, hok, hoks, Reading.isClosed, Reading.bodies, List.all_cons,
          Bool.and_left_comm]

/-- The dates that are read in stretches, one after the other. An opener that is not closed ends the
reading. -/
def datesRead (braces : List Reading) : List (List Char) :=
  (upToFirst Reading.isClosed braces).flatMap Reading.bodies

theorem datesRead_cons (r : Reading) (braces : List Reading) :
    datesRead (r :: braces) = r.bodies ++ if r.isClosed then datesRead braces else [] := by
  rw [datesRead, upToFirst, List.flatMap_cons]
  cases r.isClosed with
  | false => rfl
  | true => rfl

theorem resolveDates_of_readings (now : Calendar.Moment) (context : Context)
    {segments : List Segment} {braces : List Reading}
    (h : List.Forall₂ (Reading.Of '\x7b' '\x7d') braces (templates segments)) :
    entries context.id (resolveDates now segments).trail =
      dateEntries now context (datesRead braces) := by
  induction segments generalizing braces with
  | nil =>
      obtain rfl := List.forall₂_nil_right_iff.1 h
      rfl
  | cons segment rest ih =>
      cases segment with
      | value text =>
          rw [resolveDates, Traced.trail_bind_pure]
          exact ih h
      | template text =>
          obtain ⟨r, braces, hr, hbraces, rfl⟩ := List.forall₂_cons_right_iff.1 h
          obtain ⟨htrail, hok⟩ := resolveDatesIn_of_reading now context r
          rw [resolveDates, hr.pieces, Traced.entries_andThen, htrail, hok, ih hbraces,
            datesRead_cons, dateEntries_append]
          -- The next stretch is come to when the braces of this one are closed and its dates pass.
          cases r.isClosed with
          | false =>
              rw [Bool.false_and]
              exact congrArg _ (ite_self _).symm
          | true =>
              rw [Bool.true_and]
              rfl

/-! ## Whole templates -/

/-- Where each has a partner, a list has a list of partners. -/
theorem exists_forall₂ {α β : Type} {R : α → β → Prop} (h : ∀ b, ∃ a, R a b) (l : List β) :
    ∃ m, List.Forall₂ R m l := by
  induction l with
  | nil => exact ⟨[], .nil⟩
  | cons b rest ih =>
      obtain ⟨a, ha⟩ := h b
      obtain ⟨m, hm⟩ := ih
      exact ⟨a :: m, .cons ha hm⟩

/-- A template as it is read: the text between its brackets, what stands in them, and the text
between the braces in each stretch that the brackets leave. -/
structure TemplateReading where
  brackets : Reading
  slots : List Slot
  braces : List Reading
  deriving DecidableEq, Repr

namespace TemplateReading

/-- A reading of a template whose tokens are replaced. -/
structure Of (r : TemplateReading) (text : List Char) : Prop where
  brackets : r.brackets.Of '[' ']' text
  slots : List.Forall₂ Slot.Of r.slots r.brackets.bodies
  braces : List.Forall₂ (Reading.Of '\x7b' '\x7d') r.braces r.brackets.stretches

variable {r r' : TemplateReading} {text : List Char}

theorem exists_of (text : List Char) : ∃ r : TemplateReading, r.Of text := by
  obtain ⟨brackets, hbrackets⟩ := Reading.exists_of '[' ']' text
  obtain ⟨slots, hslots⟩ := exists_forall₂ Slot.exists_of brackets.bodies
  obtain ⟨braces, hbraces⟩ := exists_forall₂ (Reading.exists_of '\x7b' '\x7d') brackets.stretches
  exact ⟨⟨brackets, slots, braces⟩, hbrackets, hslots, hbraces⟩

theorem Of.unique (h : r.Of text) (h' : r'.Of text) : r = r' := by
  obtain ⟨brackets, slots, braces⟩ := r
  obtain ⟨brackets', slots', braces'⟩ := r'
  obtain ⟨hbrackets, hslots, hbraces⟩ := h
  obtain ⟨hbrackets', hslots', hbraces'⟩ := h'
  obtain rfl : brackets = brackets' := hbrackets.unique hbrackets'
  obtain rfl : slots = slots' :=
    List.left_unique_forall₂' (fun _ _ _ h h' => h.unique h') hslots hslots'
  obtain rfl : braces = braces' :=
    List.left_unique_forall₂' (fun _ _ _ h h' => h.unique h') hbraces hbraces'
  rfl

/-- Whether all references are read and resolve. -/
def complete (policy : MissingProperty) (context : Context) (r : TemplateReading) : Bool :=
  r.brackets.isClosed && r.slots.all (Slot.resolves policy context)

/-- What resolution leaves behind when the given dates are come to: the references up to the first
that does not resolve, and if all of them do, the dates up to the first that does not. -/
def resolution (policy : MissingProperty) (context : Context) (now : Calendar.Moment)
    (dates : List (List Char)) (r : TemplateReading) : List Entry :=
  (upToFirst (Slot.resolves policy context) r.slots).flatMap (Slot.entries policy context) ++
    if r.complete policy context then dateEntries now context dates else []

end TemplateReading

/-- **The trail of a resolution is told from how the template is read.** -/
theorem entries_resolve (policy : MissingProperty) {template : String} (context : Context)
    (now : Calendar.Moment) {r : TemplateReading}
    (h : r.Of (withTokens context now template.toList)) :
    entries context.id (resolve policy template context now).trail =
      r.resolution policy context now (datesRead r.braces) := by
  obtain ⟨htrail, hok, htemplates⟩ := resolveReferences_of_reading policy context h.slots
  rw [resolve, Traced.trail_bind_pure, resolveText, h.brackets.pieces, TemplateReading.resolution,
    TemplateReading.complete, ← hok, ← htrail]
  cases hresult : (resolveReferences policy context r.brackets.pieces).result with
  | error e =>
      rw [Traced.bind_of_error _ hresult]
      exact (List.append_nil _).symm
  | ok segments =>
      have hbraces := h.braces
      rw [← htemplates segments hresult] at hbraces
      rw [Traced.bind_of_ok _ hresult, entries, List.map_append]
      exact congrArg (_ ++ ·) (resolveDates_of_readings now context hbraces)

end MessageArchive.Template
