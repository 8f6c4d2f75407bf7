import MessageArchive.Proofs.Template.Grammar
import MessageArchive.Proofs.Text.Reading

set_option autoImplicit false

/-! # What a failed resolution reports

A template can have several faults, and one of them is reported. Which one follows from the order
of the two passes: the leftmost faulty reference, wherever the dates stand; and if all references
resolve, the leftmost faulty date.

A pass over placeholders comes to an opener when all placeholders before it are closed and resolve.
It fails there when the opener is not closed, or when what stands between the delimiters fails
(`FailsAt`). Both passes are of this kind (`IsPass`), so the error of either is read off the text
(`IsPass.error_iff`). The second pass goes through the stretches that the first one leaves, from
left to right (`DatesFail`).
-/

namespace MessageArchive.Template

open MessageArchive.Audit MessageArchive.Text

/-! ## The leftmost placeholder that fails -/

/-- What is wrong with a placeholder, by the text behind its opener: there is no closer, or what
stands before the closer fails. -/
inductive FaultBehind (closer : Char) (fails : List Char → ArchiveError → Prop) :
    List Char → ArchiveError → Prop
  | unclosed {behind : List Char} (noCloser : closer ∉ behind) :
      FaultBehind closer fails behind (.malformed (.unclosed closer))
  | body {body after : List Char} {e : ArchiveError} (noCloser : closer ∉ body)
      (fault : fails body e) : FaultBehind closer fails (body ++ closer :: after) e

/-- The layout up to an opener: its delimiters are those that a reader finds who goes from left to
right, and its placeholders resolve. -/
structure Resolved (opener closer : Char) (resolves : List Char → Prop)
    (front : Layout (List Char)) : Prop where
  stretches : ∀ s ∈ front.stretches, opener ∉ s
  bodies : ∀ b ∈ front.bodies, closer ∉ b
  resolve : ∀ b ∈ front.bodies, resolves b

/-- The text is a layout written down, an opener and the text `behind` it. All placeholders of the
layout resolve, and the one that the opener begins has the fault `e`. -/
structure FailsAt (opener closer : Char) (resolves : List Char → Prop)
    (fails : List Char → ArchiveError → Prop) (front : Layout (List Char)) (behind text : List Char)
    (e : ArchiveError) : Prop where
  written : front.write opener closer ++ opener :: behind = text
  resolved : Resolved opener closer resolves front
  fault : FaultBehind closer fails behind e

/-- The leftmost placeholder of the text that fails has the fault `e`. -/
def FirstFailure (opener closer : Char) (resolves : List Char → Prop)
    (fails : List Char → ArchiveError → Prop) (text : List Char) (e : ArchiveError) : Prop :=
  ∃ front behind, FailsAt opener closer resolves fails front behind text e

section

variable {opener closer : Char} {resolves : List Char → Prop}
  {fails : List Char → ArchiveError → Prop} {s body behind after text : List Char}
  {front : Layout (List Char)} {e : ArchiveError}

theorem Resolved.of_last (h : opener ∉ s) : Resolved opener closer resolves (.last s) :=
  ⟨by simpa [Layout.stretches] using h, by simp [Layout.bodies], by simp [Layout.bodies]⟩

theorem resolved_more_iff :
    Resolved opener closer resolves (.more s body front) ↔
      opener ∉ s ∧ closer ∉ body ∧ resolves body ∧ Resolved opener closer resolves front := by
  constructor
  · rintro ⟨hs, hb, hr⟩
    simp only [Layout.stretches, Layout.bodies, List.mem_cons, forall_eq_or_imp] at hs hb hr
    exact ⟨hs.1, hb.1, hr.1, hs.2, hb.2, hr.2⟩
  · rintro ⟨hs, hb, hr, hfront⟩
    refine ⟨?_, ?_, ?_⟩
    · simpa only [Layout.stretches, List.mem_cons, forall_eq_or_imp] using ⟨hs, hfront.stretches⟩
    · simpa only [Layout.bodies, List.mem_cons, forall_eq_or_imp] using ⟨hb, hfront.bodies⟩
    · simpa only [Layout.bodies, List.mem_cons, forall_eq_or_imp] using ⟨hr, hfront.resolve⟩

theorem faultBehind_unclosed_iff (h : closer ∉ behind) :
    FaultBehind closer fails behind e ↔ e = .malformed (.unclosed closer) := by
  constructor
  · intro hfault
    cases hfault with
    | unclosed _ => rfl
    | body _ _ => exact absurd (by simp) h
  · rintro rfl
    exact .unclosed h

theorem faultBehind_closed_iff (h : closer ∉ body) :
    FaultBehind closer fails (body ++ closer :: after) e ↔ fails body e := by
  constructor
  · intro hfault
    generalize hbehind : body ++ closer :: after = behind at hfault
    cases hfault with
    | unclosed hno => exact absurd (by simp [← hbehind]) hno
    | body hno hfails =>
        obtain ⟨rfl, -⟩ := Reading.split_unique hbehind h hno
        exact hfails
  · exact .body h

/-! ### Where the scan for placeholders stops -/

/-- Where there is no opener, there is nothing to fail. -/
theorem not_firstFailure (h : opener ∉ text) :
    ¬ FirstFailure opener closer resolves fails text e := by
  rintro ⟨front, behind, rfl, -, -⟩
  exact h (by simp)

theorem firstFailure_unclosed_iff (hs : opener ∉ s) (hbehind : closer ∉ behind) :
    FirstFailure opener closer resolves fails (s ++ opener :: behind) e ↔
      e = .malformed (.unclosed closer) := by
  constructor
  · rintro ⟨front, behind', hwritten, hresolved, hfault⟩
    cases front with
    | last s' =>
        have hs' : opener ∉ s' := hresolved.stretches s' (by simp [Layout.stretches])
        obtain ⟨-, rfl⟩ := Reading.split_unique hwritten hs' hs
        exact (faultBehind_unclosed_iff hbehind).1 hfault
    | more s' body' front =>
        -- The placeholder before the one that fails would have its closer behind the first opener.
        have hs' : opener ∉ s' := (resolved_more_iff.1 hresolved).1
        simp only [Layout.write, Layout.fill, enclose, id, List.append_assoc, List.cons_append,
          List.nil_append] at hwritten
        obtain ⟨-, rfl⟩ := Reading.split_unique hwritten hs' hs
        exact absurd (by simp) hbehind
  · intro he
    exact ⟨.last s, behind, rfl, .of_last hs, (faultBehind_unclosed_iff hbehind).2 he⟩

theorem firstFailure_closed_iff (hs : opener ∉ s) (hbody : closer ∉ body) :
    FirstFailure opener closer resolves fails (s ++ opener :: (body ++ closer :: after)) e ↔
      fails body e ∨ resolves body ∧ FirstFailure opener closer resolves fails after e := by
  constructor
  · rintro ⟨front, behind, hwritten, hresolved, hfault⟩
    cases front with
    | last s' =>
        have hs' : opener ∉ s' := hresolved.stretches s' (by simp [Layout.stretches])
        obtain ⟨-, rfl⟩ := Reading.split_unique hwritten hs' hs
        exact Or.inl ((faultBehind_closed_iff hbody).1 hfault)
    | more s' body' front =>
        obtain ⟨hs', hbody', hbefore, hfront⟩ := resolved_more_iff.1 hresolved
        simp only [Layout.write, Layout.fill, enclose, id, List.append_assoc, List.cons_append,
          List.nil_append] at hwritten
        obtain ⟨-, hrest⟩ := Reading.split_unique hwritten hs' hs
        obtain ⟨rfl, hafter⟩ := Reading.split_unique hrest hbody' hbody
        exact Or.inr ⟨hbefore, front, behind, hafter, hfront, hfault⟩
  · rintro (hfails | ⟨hbefore, front, behind, rfl, hfront, hfault⟩)
    · exact ⟨.last s, _, rfl, .of_last hs, (faultBehind_closed_iff hbody).2 hfails⟩
    · refine ⟨.more s body front, behind, ?_, resolved_more_iff.2 ⟨hs, hbody, hbefore, hfront⟩,
        hfault⟩
      simp only [Layout.write, Layout.fill, enclose, id, List.append_assoc, List.cons_append,
        List.nil_append]

end

/-! ## Passes -/

/-- A pass over a text that is cut at its placeholders, by the errors it ends with. It fails at a
placeholder that is not closed and at one that fails; behind one that resolves it goes on. -/
structure IsPass {β : Type} (closer : Char) (resolves : List Char → Prop)
    (fails : List Char → ArchiveError → Prop) (run : Pieces → Except ArchiveError β) : Prop where
  last : ∀ s e, run (.last s) ≠ .error e
  unclosed : run .unclosed = .error (.malformed (.unclosed closer))
  more : ∀ s body rest e,
    run (.more s body rest) = .error e ↔ fails body e ∨ resolves body ∧ run rest = .error e

/-- A pass ends with the fault of the leftmost placeholder that fails. -/
theorem IsPass.error_iff {β : Type} {opener closer : Char} {resolves : List Char → Prop}
    {fails : List Char → ArchiveError → Prop} {run : Pieces → Except ArchiveError β}
    (h : IsPass closer resolves fails run) {text : List Char} {e : ArchiveError} :
    run (Pieces.ofText opener closer text) = .error e ↔
      FirstFailure opener closer resolves fails text e := by
  -- The induction is on the cuts of the text: behind a placeholder that resolves the pass goes on.
  induction text using Pieces.ofText.induct opener closer with
  | case1 text hcut =>
      rw [Pieces.ofText_of_absent hcut]
      exact iff_of_false (h.last text e) (not_firstFailure (cut_eq_absent_iff.1 hcut))
  | case2 text hcut =>
      obtain ⟨s, behind, rfl, hs, hbehind⟩ := cut_eq_unclosed_iff.1 hcut
      rw [Pieces.ofText_of_unclosed hcut, h.unclosed, firstFailure_unclosed_iff hs hbehind,
        Except.error.injEq, eq_comm]
  | case3 text s body after hcut ih =>
      obtain ⟨rfl, hs, hbody⟩ := cut_eq_found_iff.1 hcut
      rw [Pieces.ofText_of_found hcut, h.more, ih, firstFailure_closed_iff hs hbody]

/-! ## References -/

/-- What is wrong with a body in brackets: there is no slash in it, or the property it names is not
set although properties have to be. -/
inductive ReferenceFails (policy : MissingProperty) (context : Context) (body : List Char) :
    ArchiveError → Prop
  | noSlash (noSlash : '/' ∉ trim body) :
      ReferenceFails policy context body (.malformed (.noSlash (String.ofList (trim body))))
  | unset {r : Reference} (strict : policy = .fail) (names : Names body r)
      (unset : context.property r.space r.name = none) :
      ReferenceFails policy context body (.unresolved r.space r.name)

theorem lookup_error_iff {policy : MissingProperty} {context : Context} {r : Reference}
    {e : ArchiveError} :
    (lookup policy context r).result = .error e ↔
      policy = .fail ∧ context.property r.space r.name = none ∧ e = .unresolved r.space r.name := by
  cases h : context.property r.space r.name with
  | some value => simp [lookup_of_some policy h]
  | none =>
      cases policy with
      | empty => simp [lookup_of_none_empty h]
      | fail => simp [lookup_of_none_fail h, eq_comm]

theorem resolveReference_error_iff {policy : MissingProperty} {context : Context}
    {body : List Char} {e : ArchiveError} :
    (resolveReference policy context body).result = .error e ↔
      ReferenceFails policy context body e := by
  simp only [resolveReference, Reference.parse]
  cases h : Reference.ofText? (trim body) with
  | none =>
      have hslash : '/' ∉ trim body := Reference.ofText?_eq_none_iff.1 h
      simp only [Traced.result_fail, Except.error.injEq]
      constructor
      · rintro rfl
        exact .noSlash hslash
      · intro hfails
        cases hfails with
        | noSlash _ => rfl
        | unset _ hnames _ =>
            rw [names_iff_ofText?, h] at hnames
            cases hnames
  | some r =>
      have hnames : Names body r := names_iff_ofText?.2 h
      rw [lookup_error_iff]
      constructor
      · rintro ⟨hpolicy, hunset, rfl⟩
        exact .unset hpolicy hnames hunset
      · intro hfails
        cases hfails with
        | noSlash hno =>
            rw [Reference.ofText?_eq_none_iff.2 hno] at h
            cases h
        | unset hpolicy hnames' hunset =>
            rw [names_iff_ofText?, h] at hnames'
            obtain rfl := Option.some.inj hnames'
            exact ⟨hpolicy, hunset, rfl⟩

theorem isPass_resolveReferences (policy : MissingProperty) (context : Context) :
    IsPass ']' (ReferenceResolves policy context) (ReferenceFails policy context)
      fun p => (resolveReferences policy context p).result := by
  refine ⟨fun s e => ?_, rfl, fun s body rest e => ?_⟩
  · simp [resolveReferences]
  simp only [resolveReferences, Traced.result_bind_eq_error_iff, Traced.result_pure, reduceCtorEq,
    and_false, exists_false, or_false, resolveReference_error_iff, resolveReference_result_iff,
    exists_and_right, exists_and_left, exists_eq, and_true]

/-! ## Dates -/

/-- What is wrong with a body in braces: its pattern cannot be written. -/
inductive DateFails (now : Calendar.Moment) (body : List Char) : ArchiveError → Prop
  | pattern {fault : Calendar.Pattern.Fault}
      (notWritten : Calendar.formatDate (trim body) now = .error fault) :
      DateFails now body (.malformed (.datePattern (String.ofList (trim body)) fault))

theorem resolveDate_error_iff {now : Calendar.Moment} {body : List Char} {e : ArchiveError} :
    (resolveDate now body).result = .error e ↔ DateFails now body e := by
  simp only [resolveDate, Traced.result_record_bind]
  cases h : Calendar.formatDate (trim body) now with
  | error fault =>
      simp only [Traced.result_fail, Except.error.injEq]
      constructor
      · rintro rfl
        exact .pattern h
      · rintro ⟨hfault⟩
        rw [h] at hfault
        rw [Except.error.inj hfault]
  | ok text =>
      simp only [Traced.result_pure, reduceCtorEq, false_iff]
      rintro ⟨hfault⟩
      rw [h] at hfault
      cases hfault

theorem isPass_resolveDatesIn (now : Calendar.Moment) :
    IsPass '\x7d' (DateResolves now) (DateFails now) fun p => (resolveDatesIn now p).result := by
  refine ⟨fun s e => ?_, rfl, fun s body rest e => ?_⟩
  · simp [resolveDatesIn]
  · simp only [resolveDatesIn, Traced.result_bind_eq_error_iff, Traced.result_pure, reduceCtorEq,
      and_false, exists_false, or_false, resolveDate_error_iff, resolveDate_result_iff,
      exists_and_right, exists_and_left, exists_eq, and_true]

/-- A stretch without references in which all dates resolve. -/
def DatesResolve (now : Calendar.Moment) (s : List Char) : Prop :=
  ∃ l : Layout (List Char), l.Reads '\x7b' '\x7d' s ∧ ∀ p ∈ l.bodies, DateResolves now p

/-- The leftmost date that fails has the fault `e`: it is the first one in its stretch, and in the
stretches before that one all dates resolve. -/
def DatesFail (now : Calendar.Moment) (stretches : List (List Char)) (e : ArchiveError) : Prop :=
  ∃ front s back, stretches = front ++ s :: back ∧ (∀ t ∈ front, DatesResolve now t) ∧
    FirstFailure '\x7b' '\x7d' (DateResolves now) (DateFails now) s e

theorem not_datesFail_nil {now : Calendar.Moment} {e : ArchiveError} : ¬ DatesFail now [] e := by
  rintro ⟨front, s, back, h, -, -⟩
  exact absurd h (by simp)

theorem datesFail_cons_iff {now : Calendar.Moment} {s : List Char} {rest : List (List Char)}
    {e : ArchiveError} :
    DatesFail now (s :: rest) e ↔
      FirstFailure '\x7b' '\x7d' (DateResolves now) (DateFails now) s e ∨
        DatesResolve now s ∧ DatesFail now rest e := by
  constructor
  · rintro ⟨front, s', back, h, hfront, hfails⟩
    cases front with
    | nil =>
        obtain ⟨rfl, rfl⟩ := List.cons.inj h
        exact Or.inl hfails
    | cons t front =>
        obtain ⟨rfl, rfl⟩ := List.cons.inj h
        exact Or.inr ⟨hfront s (by simp), front, s', back, rfl,
          fun u hu => hfront u (List.mem_cons_of_mem _ hu), hfails⟩
  · rintro (hfails | ⟨hs, front, s', back, rfl, hfront, hfails⟩)
    · exact ⟨[], s, rest, rfl, by simp, hfails⟩
    · refine ⟨s :: front, s', back, rfl, ?_, hfails⟩
      simpa only [List.mem_cons, forall_eq_or_imp] using ⟨hs, hfront⟩

theorem exists_resolveDatesIn_iff {now : Calendar.Moment} {s : List Char} :
    (∃ out, (resolveDatesIn now (Pieces.ofText '\x7b' '\x7d' s)).result = .ok out) ↔
      DatesResolve now s := by
  simp only [resolveDatesIn_ofText_result_iff, DatesResolve]
  constructor
  · rintro ⟨out, l, hl, hdates, -⟩
    exact ⟨l, hl, hdates⟩
  · rintro ⟨l, hl, hdates⟩
    exact ⟨_, l, hl, hdates, rfl⟩

theorem resolveDates_error_iff {context : Context} {now : Calendar.Moment}
    {l : Layout (List Char)} {e : ArchiveError} :
    (resolveDates now (segments context l)).result = .error e ↔ DatesFail now l.stretches e := by
  -- The induction is on the layout that the references leave; values between stretches do not fail.
  induction l with
  | last s =>
      simp only [segments, resolveDates, Layout.stretches, Traced.result_bind_eq_error_iff,
        Traced.result_pure, reduceCtorEq, and_false, exists_false, or_false, datesFail_cons_iff,
        not_datesFail_nil]
      exact (isPass_resolveDatesIn now).error_iff
  | more s b rest ih =>
      simp only [segments, resolveDates, Layout.stretches, Traced.result_bind_eq_error_iff,
        Traced.result_pure, reduceCtorEq, and_false, exists_false, or_false, datesFail_cons_iff,
        ih, exists_and_right, exists_resolveDatesIn_iff]
      exact or_congr_left (isPass_resolveDatesIn now).error_iff

/-! ## Both passes -/

/-- The references in `front` resolve, and the one whose opener stands behind them has the fault
`e`. -/
abbrev ReferenceFailsAt (policy : MissingProperty) (context : Context) (front : Layout (List Char))
    (behind text : List Char) (e : ArchiveError) : Prop :=
  FailsAt '[' ']' (ReferenceResolves policy context) (ReferenceFails policy context) front behind
    text e

/-- The leftmost reference of the text that fails has the fault `e`. -/
abbrev ReferencesFail (policy : MissingProperty) (context : Context) (text : List Char)
    (e : ArchiveError) : Prop :=
  ∃ front behind, ReferenceFailsAt policy context front behind text e

theorem resolveReferences_error_iff {policy : MissingProperty} {context : Context}
    {text : List Char} {e : ArchiveError} :
    (resolveReferences policy context (Pieces.ofText '[' ']' text)).result = .error e ↔
      ReferencesFail policy context text e :=
  (isPass_resolveReferences policy context).error_iff

/-- When a reference fails, nothing else is looked at. -/
theorem resolveText_of_referencesFail {policy : MissingProperty} {context : Context}
    {text : List Char} {e : ArchiveError} (h : ReferencesFail policy context text e)
    (now : Calendar.Moment) : (resolveText policy context now text).result = .error e :=
  Traced.result_bind_eq_error_iff.2 (Or.inl (resolveReferences_error_iff.2 h))

/-- When all references resolve, it is the dates that can fail. -/
theorem resolveText_error_iff_dates {policy : MissingProperty} {context : Context}
    {now : Calendar.Moment} {text : List Char} {l : Layout (List Char)} {e : ArchiveError}
    (hl : l.Reads '[' ']' text) (hrefs : ∀ b ∈ l.bodies, ReferenceResolves policy context b) :
    (resolveText policy context now text).result = .error e ↔ DatesFail now l.stretches e := by
  have hsegments : (resolveReferences policy context (Pieces.ofText '[' ']' text)).result =
      .ok (segments context l) :=
    resolveReferences_result_iff.2 ⟨l, Layout.reads_iff_layout?.1 hl, hrefs, rfl⟩
  rw [resolveText, Traced.bind_of_ok _ hsegments]
  exact resolveDates_error_iff

theorem resolveText_error_cases {policy : MissingProperty} {context : Context}
    {now : Calendar.Moment} {text : List Char} {e : ArchiveError}
    (h : (resolveText policy context now text).result = .error e) :
    ReferencesFail policy context text e ∨
      ∃ l : Layout (List Char), l.Reads '[' ']' text ∧
        (∀ b ∈ l.bodies, ReferenceResolves policy context b) ∧ DatesFail now l.stretches e := by
  rcases Traced.result_bind_eq_error_iff.1 h with hrefs | ⟨segs, hsegs, -⟩
  · exact Or.inl (resolveReferences_error_iff.1 hrefs)
  · obtain ⟨l, hl, hresolve, -⟩ := resolveReferences_result_iff.1 hsegs
    have hreads := Layout.reads_iff_layout?.2 hl
    exact Or.inr ⟨l, hreads, hresolve, (resolveText_error_iff_dates hreads hresolve).1 h⟩

theorem resolve_error_iff {policy : MissingProperty} {template : String} {context : Context}
    {now : Calendar.Moment} {e : ArchiveError} :
    (resolve policy template context now).result = .error e ↔
      (resolveText policy context now (withTokens context now template.toList)).result =
        .error e := by
  simp [resolve, Traced.result_bind_eq_error_iff]

/-- How the error of a resolution is found, by the text of the template with its tokens replaced. -/
structure ReportsFirst (policy : MissingProperty) (context : Context) (now : Calendar.Moment)
    (text : List Char) (ending : Except ArchiveError String) : Prop where
  /-- The pass over the references fails when one of them does, with the fault of the leftmost. -/
  references : ∀ e, (resolveReferences policy context (Pieces.ofText '[' ']' text)).result =
    .error e ↔ ReferencesFail policy context text e
  /-- When it fails, its error is the one that is reported. -/
  reported : ∀ e, ReferencesFail policy context text e → ending = .error e
  /-- When it does not, the text is read as references that resolve, and what is reported is the
  fault of the leftmost date that fails in the stretches between them. -/
  dates : ∀ segs, (resolveReferences policy context (Pieces.ofText '[' ']' text)).result =
    .ok segs → ∃ l : Layout (List Char), l.Reads '[' ']' text ∧
      (∀ b ∈ l.bodies, ReferenceResolves policy context b) ∧
      ∀ e, ending = .error e ↔ DatesFail now l.stretches e
  /-- The fault of a reference is reported at every moment, with any other text between the
  references before it, and with any other text behind its opener that has the same fault. -/
  undated : ∀ front behind e, ReferenceFailsAt policy context front behind text e →
    ∀ (front' : Layout (List Char)) (behind' : List Char) (now' : Calendar.Moment),
      front'.bodies = front.bodies → (∀ s ∈ front'.stretches, '[' ∉ s) →
      FaultBehind ']' (ReferenceFails policy context) behind' e →
      (resolveText policy context now' (front'.write '[' ']' ++ '[' :: behind')).result = .error e
  /-- When the reference that fails is closed, any text can stand behind it. -/
  behind : ∀ front body after e, ']' ∉ body →
    ReferenceFailsAt policy context front (body ++ ']' :: after) text e →
    ∀ after', (resolveText policy context now
      (front.write '[' ']' ++ '[' :: (body ++ ']' :: after'))).result = .error e

/-- **A failed resolution reports the first failure in the order of its passes.** The references
come first: when one of them fails, the error is that of the leftmost, whatever the dates are. The
dates come second, and the error is again that of the leftmost which fails. -/
theorem first_failure_is_reported (policy : MissingProperty) (template : String)
    (context : Context) (now : Calendar.Moment) :
    ReportsFirst policy context now (withTokens context now template.toList)
      (resolve policy template context now).result := by
  refine ⟨fun e => resolveReferences_error_iff, fun e h => ?_, fun segs h => ?_, ?_, ?_⟩
  · exact resolve_error_iff.2 (resolveText_of_referencesFail h now)
  · obtain ⟨l, hl, hrefs, -⟩ := resolveReferences_result_iff.1 h
    have hreads := Layout.reads_iff_layout?.2 hl
    exact ⟨l, hreads, hrefs, fun e =>
      resolve_error_iff.trans (resolveText_error_iff_dates hreads hrefs)⟩
  · rintro front behind e ⟨-, ⟨-, hbodies, hresolve⟩, -⟩ front' behind' now' hsame hs hfault
    refine resolveText_of_referencesFail ⟨front', behind', rfl, ⟨hs, ?_, ?_⟩, hfault⟩ now'
    · rwa [hsame]
    · rwa [hsame]
  · rintro front body after e hbody ⟨-, hresolved, hfault⟩ after'
    have hfault' := (faultBehind_closed_iff hbody).1 hfault
    exact resolveText_of_referencesFail ⟨front, _, rfl, hresolved, .body hbody hfault'⟩ now

-- A faulty date stands first, and a bracket behind it is not closed; neither of them is reported.
example : (resolve .empty "\x7bQ\x7d-[ a ]-[ns/b" (Message.context { id := "m" })
    ⟨⟨0, 0⟩, .utc⟩).result = .error (.malformed (.noSlash "a")) := by cbv

end MessageArchive.Template
