import MessageArchive.Proofs.Text.Locating
import MessageArchive.Template.Placeholder
import MessageArchive.Template.Resolver

set_option autoImplicit false

/-! # Loops over placeholders

The two passes of a resolver that look for placeholders are loops. A turn locates the leftmost
placeholder of the text that is left, slices the text at both ends of it, and goes on with what is
behind. A `Loop` works with the byte positions that were located, and it may make a limited number of
turns only, so it could break off at a slice that is not legal, or when no turn is left.

It does neither. The slices of a located placeholder are legal, and each turn leaves an opener less,
so as many turns as there are openers are enough. The loop then ends with what the pass gives that
goes over the text cut at its placeholders (`Loop.run_eq`). The references of a template and the dates
in a stretch of it are both resolved in this way.
-/

namespace MessageArchive.Template

open MessageArchive.Audit MessageArchive.Text

/-! ## The search in a template -/

section

variable {opener closer : Char} {s : String}

theorem findEnclosed_eq_none_iff : findEnclosed s opener closer = .ok none ↔ opener ∉ s.toList := by
  rw [findEnclosed, faultIfMissing_eq_ok_iff, Text.findEnclosed_eq_none_iff]

theorem findEnclosed_eq_some_iff {found : Occurrence} :
    findEnclosed s opener closer = .ok (some found) ↔
      ∃ before body after, Located opener closer s before body after found := by
  rw [findEnclosed, faultIfMissing_eq_ok_iff, Text.findEnclosed_eq_some_iff]

theorem findEnclosed_eq_error_iff {e : ArchiveError} :
    findEnclosed s opener closer = .error e ↔
      e = .malformed (.unclosed closer) ∧
        ∃ before behind, LeftOpen opener closer s before behind := by
  rw [findEnclosed, faultIfMissing_eq_error_iff]
  constructor
  · rintro ⟨missing, hmissing, rfl⟩
    obtain ⟨rfl, hopen⟩ := Text.findEnclosed_eq_error_iff.1 hmissing
    exact ⟨rfl, hopen⟩
  · rintro ⟨rfl, hopen⟩
    exact ⟨closer, Text.findEnclosed_eq_error_iff.2 ⟨rfl, hopen⟩, rfl⟩

theorem extract_eq (s : String) (opener closer : Char) :
    extract s opener closer =
      (findEnclosed s opener closer).map (Option.map Occurrence.inner) := by
  rw [extract, findEnclosed, Text.extract]
  cases Text.findEnclosed s opener closer with
  | error missing => rfl
  | ok found => rfl

end

/-! ## Loops -/

/-- What is done in a loop over the placeholders of a text. -/
structure Loop (α β : Type) where
  opener : Char
  closer : Char
  /-- The work on what stands in a placeholder. -/
  work : String → Traced α
  /-- What the text behind the last placeholder becomes. -/
  last : String → β
  /-- What the text before a placeholder, the work on it, and what follows become. -/
  more : String → α → β → β

namespace Loop

variable {α β : Type}

/-- Runs a loop on a text. There is no answer when the turns do not suffice, and none when the text
cannot be sliced at the ends of a placeholder. -/
def run (l : Loop α β) (turns : Nat) (s : String) : Option (Traced β) :=
  match findEnclosed s l.opener l.closer with
  | .error e => some (Traced.fail e)
  | .ok none => some (pure (l.last s))
  | .ok (some found) =>
      match turns with
      | 0 => none
      | turns + 1 => do
          -- The slices have to be legal also where the work fails and nothing of them is used.
          let before ← slice? s 0 found.start
          let after ← slice? s found.stop s.utf8ByteSize
          let following ← l.run turns after
          return do
            let a ← l.work found.inner
            let b ← following
            return l.more before a b

/-- The pass does on the pieces of a text what the loop does on the text. -/
structure Does (l : Loop α β) (pass : Pieces → Traced β) : Prop where
  last : ∀ text, pass (.last text) = pure (l.last (.ofList text))
  unclosed : pass .unclosed = Traced.fail (.malformed (.unclosed l.closer))
  more : ∀ text body rest, pass (.more text body rest) = do
    let a ← l.work (.ofList (trim body))
    let b ← pass rest
    return l.more (.ofList text) a b

variable {l : Loop α β} {pass : Pieces → Traced β} {s before body after behind : String}
  {found : Occurrence}

/-- Without an opener the loop makes no turn. -/
theorem run_of_absent (h : l.Does pass) (hs : l.opener ∉ s.toList) (turns : Nat) :
    l.run turns s = some (pass (Pieces.ofText l.opener l.closer s.toList)) := by
  have hnone : findEnclosed s l.opener l.closer = .ok none := findEnclosed_eq_none_iff.2 hs
  unfold run
  rw [hnone, Pieces.ofText_of_absent (cut_eq_absent_iff.2 hs), h.last, String.ofList_toList]

/-- An opener that is never closed ends the loop, whatever turns are left. -/
theorem run_of_leftOpen (h : l.Does pass) (hs : LeftOpen l.opener l.closer s before behind)
    (turns : Nat) : l.run turns s = some (pass (Pieces.ofText l.opener l.closer s.toList)) := by
  have herror : findEnclosed s l.opener l.closer = .error (.malformed (.unclosed l.closer)) :=
    findEnclosed_eq_error_iff.2 ⟨rfl, before, behind, hs⟩
  unfold run
  rw [herror, Pieces.ofText_of_unclosed (leftOpen_iff.1 ⟨before, behind, hs⟩), h.unclosed]

/-- A turn never breaks off, since a placeholder that was located has its slices. -/
theorem run_of_located (hs : Located l.opener l.closer s before body after found) (turns : Nat) :
    l.run (turns + 1) s = (l.run turns after).map fun following => do
      let a ← l.work found.inner
      let b ← following
      return l.more before a b := by
  have hfound : findEnclosed s l.opener l.closer = .ok (some found) :=
    findEnclosed_eq_some_iff.2 ⟨before, body, after, hs⟩
  rw [run, hfound]
  simp only [hs.slice?_before, hs.slice?_after, Option.bind_eq_bind, Option.bind_some]
  cases l.run turns after <;> rfl

/-- As many turns as there are openers are enough, and the loop ends as the pass does. -/
theorem run_eq (h : l.Does pass) {turns : Nat} (hturns : s.toList.count l.opener ≤ turns) :
    l.run turns s = some (pass (Pieces.ofText l.opener l.closer s.toList)) := by
  -- The induction is on the turns that are left: behind a placeholder one opener less is to come.
  induction turns generalizing s with
  | zero => exact run_of_absent h (List.count_eq_zero.1 (Nat.le_zero.1 hturns)) 0
  | succ turns ih =>
      cases hcut : cut l.opener l.closer s.toList with
      | absent => exact run_of_absent h (cut_eq_absent_iff.1 hcut) (turns + 1)
      | unclosed =>
          obtain ⟨before, behind, hs⟩ := leftOpen_iff.2 hcut
          exact run_of_leftOpen h hs (turns + 1)
      | found before body after =>
          obtain ⟨found, -, hs⟩ := exists_located_of_cut hcut
          have hcount := hs.count_after_lt
          rw [run_of_located hs, ih (by omega), Pieces.ofText_of_found hcut, h.more, hs.inner_eq,
            String.toList_ofList, String.toList_ofList, Option.map_some]

end Loop

/-! ## The passes of the resolver -/

/-- The loop over the references of a template. -/
def referenceLoop (policy : MissingProperty) (context : Context) :
    Loop (List Char) (List Segment) where
  opener := '['
  closer := ']'
  work inner :=
    match Reference.parse inner.toList with
    | .error e => Traced.fail e
    | .ok reference => lookup policy context reference
  last rest := [.template rest.toList]
  more before value segments := .template before.toList :: .value value :: segments

/-- The loop over the dates in a stretch of template text. -/
def dateLoop (now : Calendar.Moment) : Loop (List Char) (List Char) where
  opener := '\x7b'
  closer := '\x7d'
  work inner := do
    Traced.record (.dateFound inner)
    match Calendar.formatDate inner.toList now with
    | .ok text => return text
    | .error fault => Traced.fail (.malformed (.datePattern inner fault))
  last rest := rest.toList
  more before date following := before.toList ++ date ++ following

theorem referenceLoop_work (policy : MissingProperty) (context : Context) (body : List Char) :
    (referenceLoop policy context).work (.ofList (trim body)) =
      resolveReference policy context body := by
  simp only [referenceLoop, String.toList_ofList]
  rfl

theorem dateLoop_work (now : Calendar.Moment) (body : List Char) :
    (dateLoop now).work (.ofList (trim body)) = resolveDate now body := by
  simp only [dateLoop, String.toList_ofList]
  rfl

theorem referenceLoop_does (policy : MissingProperty) (context : Context) :
    (referenceLoop policy context).Does (resolveReferences policy context) := by
  refine ⟨fun text => ?_, rfl, fun text body rest => ?_⟩
  · simp only [resolveReferences, referenceLoop, String.toList_ofList]
  · rw [resolveReferences, referenceLoop_work]
    simp only [referenceLoop, String.toList_ofList]

theorem dateLoop_does (now : Calendar.Moment) : (dateLoop now).Does (resolveDatesIn now) := by
  refine ⟨fun text => ?_, rfl, fun text body rest => ?_⟩
  · simp only [resolveDatesIn, dateLoop, String.toList_ofList]
  · rw [resolveDatesIn, dateLoop_work]
    simp only [dateLoop, String.toList_ofList]

/-! ## The search and the loops -/

/-- What the search for the leftmost placeholder of a text tells, and what can be done with it. -/
structure Locates (opener closer : Char) (s : String) : Prop where
  /-- Nothing is found where there is no opener, and only there. -/
  absent : findEnclosed s opener closer = .ok none ↔ opener ∉ s.toList
  /-- The search fails where there is no closer behind the first opener, and only there. The error
  names the closer. -/
  unclosed : ∀ e, findEnclosed s opener closer = .error e ↔
    e = .malformed (.unclosed closer) ∧
      ∃ before behind, LeftOpen opener closer s before behind
  /-- It names the closer in its words as well. -/
  words : ∀ e, findEnclosed s opener closer = .error e →
    e.message = "faulty filename template: no closing '" ++ closer.toString ++ "' found"
  /-- Anything else that the search can tell is the place of the leftmost placeholder, with the core
  of its body. -/
  found : ∀ found, findEnclosed s opener closer = .ok (some found) ↔
    ∃ before body after, Located opener closer s before body after found
  /-- What is extracted is that core, or what the search ends with otherwise. -/
  extracted : extract s opener closer =
    (findEnclosed s opener closer).map (Option.map Occurrence.inner)
  /-- Both ends of the placeholder stand between characters, -/
  boundaries : ∀ before body after found, Located opener closer s before body after found →
    (⟨found.start⟩ : String.Pos.Raw).IsValid s ∧ (⟨found.stop⟩ : String.Pos.Raw).IsValid s
  /-- so the text can be sliced there, into what stands before it, itself, and what stands behind. -/
  slices : ∀ before body after found, Located opener closer s before body after found →
    slice? s 0 found.start = some before ∧
      slice? s found.start found.stop = some (placeholder opener closer body) ∧
      slice? s found.stop s.utf8ByteSize = some after
  /-- What stands behind is shorter than the text. -/
  shorter : ∀ before body after found, Located opener closer s before body after found →
    after.utf8ByteSize < s.utf8ByteSize

/-- **Placeholders are located by their places in bytes, and slicing there is legal.** The search
finds the first opener and the first closer behind it, or tells that there is none of the one or of the
other. A loop that slices a text at the placeholders that are found one after another never comes to a
slice that is not legal. It ends after as many turns as there are openers, if not before, and in this
way references and dates are resolved. -/
theorem placeholders_are_located (opener closer : Char) (s : String) :
    Locates opener closer s ∧
    (∀ (policy : MissingProperty) (context : Context) (turns : Nat), s.toList.count '[' ≤ turns →
      (referenceLoop policy context).run turns s =
        some (resolveReferences policy context (Pieces.ofText '[' ']' s.toList))) ∧
    ∀ (now : Calendar.Moment) (turns : Nat), s.toList.count '\x7b' ≤ turns →
      (dateLoop now).run turns s =
        some (resolveDatesIn now (Pieces.ofText '\x7b' '\x7d' s.toList)) := by
  refine ⟨⟨findEnclosed_eq_none_iff, fun e => findEnclosed_eq_error_iff, ?_,
    fun found => findEnclosed_eq_some_iff, extract_eq s opener closer, ?_, ?_, ?_⟩, ?_, ?_⟩
  · intro e h
    obtain ⟨rfl, -⟩ := findEnclosed_eq_error_iff.1 h
    rfl
  · intro before body after found h
    exact ⟨h.isValid_start, h.isValid_stop⟩
  · intro before body after found h
    exact ⟨h.slice?_before, h.slice?_placeholder, h.slice?_after⟩
  · intro before body after found h
    exact h.size_after_lt
  · intro policy context turns hturns
    exact Loop.run_eq (referenceLoop_does policy context) hturns
  · intro now turns hturns
    exact Loop.run_eq (dateLoop_does now) hturns

/-- A reference behind a character of two bytes, with a longer one, an opener and a wide blank in its
body, and with a closer and a date behind it. -/
def nestedReference : String := "é[ ns/€[b\u2003]]\x7bHH\x7d"

theorem placeholders_are_located_nested :
    Located '[' ']' nestedReference "é" " ns/€[b\u2003" "]\x7bHH\x7d" ⟨2, 16, "ns/€[b"⟩ ∧
    findEnclosed nestedReference '[' ']' = .ok (some ⟨2, 16, "ns/€[b"⟩) ∧
    slice? nestedReference 2 16 = some "[ ns/€[b\u2003]" ∧
    slice? nestedReference 16 21 = some "]\x7bHH\x7d" ∧
    nestedReference.toList.count '[' ≤ 2 ∧
    (referenceLoop .empty (Message.context { id := "m" })).run 2 nestedReference =
      some (resolveReferences .empty (Message.context { id := "m" })
        (Pieces.ofText '[' ']' nestedReference.toList)) ∧
    nestedReference.toList.count '\x7b' ≤ 1 ∧
    (dateLoop ⟨⟨0, 0⟩, .utc⟩).run 1 nestedReference =
      some (resolveDatesIn ⟨⟨0, 0⟩, .utc⟩ (Pieces.ofText '\x7b' '\x7d' nestedReference.toList)) := by
  obtain ⟨hsearch, hreferences, hdates⟩ := placeholders_are_located '[' ']' nestedReference
  have hlocated : Located '[' ']' nestedReference "é" " ns/€[b\u2003" "]\x7bHH\x7d"
      ⟨2, 16, "ns/€[b"⟩ :=
    ⟨by decide, by decide, by decide, by decide, by decide, isTrimmed_iff.2 (by decide)⟩
  obtain ⟨-, hself, hbehind⟩ := hsearch.slices _ _ _ _ hlocated
  refine ⟨hlocated, (hsearch.found _).2 ⟨_, _, _, hlocated⟩, hself, hbehind, by decide, ?_,
    by decide, ?_⟩
  · exact hreferences .empty (Message.context { id := "m" }) 2 (by decide)
  · exact hdates ⟨⟨0, 0⟩, .utc⟩ 1 (by decide)

-- Delimiters of two bytes, and one character that is opener and closer.
example : findEnclosed "a«é»" '«' '»' = .ok (some ⟨1, 7, "é"⟩) ∧
    findEnclosed "a|é|b" '|' '|' = .ok (some ⟨1, 5, "é"⟩) ∧
    findEnclosed "a|é" '|' '|' = .error (.malformed (.unclosed '|')) := ⟨rfl, rfl, rfl⟩

end MessageArchive.Template
