import MessageArchive.Proofs.Template.Grammar

set_option autoImplicit false

/-! # Values of properties stay literal

Two lookups that set the same properties lead a template through the same steps: the same
references and dates are found, and if something fails, the same thing fails. Only the values
themselves differ, each copied to its own places of the name. So a value cannot act as part of the
template, whatever characters are in it.

The two runs are compared step by step (`Traced.Alike`). After the references both are at the
segments of one layout, each filled with its own values; after the dates both are at one layout
filled in this way, whose stretches have the dates in them.
-/

namespace MessageArchive.Template

open MessageArchive.Audit MessageArchive.Text

/-- A way to look up properties, by namespace and name. -/
abbrev PropertyLookup := String → String → Option String

/-- A message whose properties are looked up in this way. -/
def withProperties (context : Context) (property : PropertyLookup) : Context :=
  { context with property }

/-- The value of the property that is referred to, empty where it is not set. -/
def valueOf (property : PropertyLookup) (r : Reference) : List Char :=
  ((property r.space r.name).getD "").toList

/-- A text, then for each part the value of a property and the text after it. -/
def spell (property : PropertyLookup) (first : List Char) (parts : List (Reference × List Char)) :
    List Char :=
  first ++ parts.flatMap fun part => valueOf property part.1 ++ part.2

/-- The same event, or the values of properties. -/
def SameButValue (e e' : Event) : Prop :=
  e = e' ∨ ∃ a b, e = .propertyValue a ∧ e' = .propertyValue b

/-- Entries for one message with the same status. Their texts are the same, or tell the values of
properties. -/
structure EntryAlike (x y : Entry) : Prop where
  messageId : x.messageId = y.messageId
  status : x.status = y.status
  text : x.text = y.text ∨
    ∃ a b, x.text = "dynamic property has value [" ++ a ++ "]" ∧
      y.text = "dynamic property has value [" ++ b ++ "]"

/-- Two resolutions for one message, with a lookup each, that are the same but for the values: both
fail in the same way, or the names spell out the values of the same references between the same
texts; and the entries of the trails are alike, one by one. -/
structure SameButValues (messageId : String) (v w : PropertyLookup) (x y : Traced String) :
    Prop where
  ending : (∃ e, x.result = .error e ∧ y.result = .error e) ∨
    ∃ first parts, x.result = .ok (String.ofList (spell v first parts)) ∧
      y.result = .ok (String.ofList (spell w first parts))
  trail : List.Forall₂ EntryAlike (entries messageId x.trail) (entries messageId y.trail)

/-! ## Events and entries -/

theorem SameButValue.refl (e : Event) : SameButValue e e := Or.inl rfl

theorem SameButValue.entryAlike {e e' : Event} (h : SameButValue e e') (messageId : String) :
    EntryAlike (e.entry messageId) (e'.entry messageId) := by
  rcases h with rfl | ⟨a, b, rfl, rfl⟩
  · exact ⟨rfl, rfl, Or.inl rfl⟩
  · exact ⟨rfl, rfl, Or.inr ⟨a, b, rfl, rfl⟩⟩

theorem entries_alike {t t' : List Event} (h : List.Forall₂ SameButValue t t')
    (messageId : String) :
    List.Forall₂ EntryAlike (entries messageId t) (entries messageId t') := by
  rw [entries, entries, List.forall₂_map_left_iff, List.forall₂_map_right_iff]
  exact h.imp fun _ _ hab => hab.entryAlike messageId

/-! ## A layout with the values of one lookup -/

/-- Each body of the layout names a property. -/
def Named (l : Layout (List Char)) : Prop := ∀ b ∈ l.bodies, ∃ r, Names b r

theorem Named.rest {s b : List Char} {l : Layout (List Char)} (h : Named (.more s b l)) :
    Named l := fun c hc => h c (by simp [Layout.bodies, hc])

theorem propertyText_withProperties (context : Context) (property : PropertyLookup)
    {body : List Char} {r : Reference} (h : Names body r) :
    propertyText (withProperties context property) body = valueOf property r :=
  propertyText_of_names _ h

/-- A layout filled with values is a text that spells out the properties its bodies name. -/
theorem exists_spell {l : Layout (List Char)} (h : Named l) :
    ∃ first parts, ∀ (context : Context) (property : PropertyLookup),
      l.fill id (propertyText (withProperties context property)) = spell property first parts := by
  induction l with
  | last s => exact ⟨s, [], fun _ _ => by simp [Layout.fill, spell]⟩
  | more s b rest ih =>
      obtain ⟨r, hr⟩ := h b (by simp [Layout.bodies])
      obtain ⟨first, parts, hrest⟩ := ih h.rest
      refine ⟨s, (r, first) :: parts, fun context property => ?_⟩
      rw [Layout.fill, hrest, propertyText_withProperties context property hr, spell, spell,
        List.flatMap_cons]
      simp only [id, List.append_assoc]

/-! ## Two runs -/

section
variable {context : Context} {v w : PropertyLookup}

theorem lookup_alike (policy : MissingProperty) (r : Reference)
    (h : (v r.space r.name).isSome = (w r.space r.name).isSome) :
    Traced.Alike SameButValue (fun x y => x = valueOf v r ∧ y = valueOf w r)
      (lookup policy (withProperties context v) r)
      (lookup policy (withProperties context w) r) := by
  have found : Traced.Alike SameButValue (fun _ _ => True)
      (Traced.record (.propertyFound r.space r.name))
      (Traced.record (.propertyFound r.space r.name)) := .record (.refl _)
  cases hv : v r.space r.name with
  | some a =>
      have hset : (w r.space r.name).isSome := by rw [← h, hv, Option.isSome_some]
      obtain ⟨b, hw⟩ := Option.isSome_iff_exists.1 hset
      -- Both record the name and a value, and only the values differ.
      have hv' : (withProperties context v).property r.space r.name = some a := hv
      have hw' : (withProperties context w).property r.space r.name = some b := hw
      rw [lookup_of_some policy hv', lookup_of_some policy hw']
      refine found.bind fun _ _ _ => ?_
      refine (Traced.Alike.record (Or.inr ⟨a, b, rfl, rfl⟩)).bind fun _ _ _ => ?_
      exact .pure ⟨by simp [valueOf, hv], by simp [valueOf, hw]⟩
  | none =>
      have hw : w r.space r.name = none := by simpa [hv] using h
      have hv' : (withProperties context v).property r.space r.name = none := hv
      have hw' : (withProperties context w).property r.space r.name = none := hw
      cases policy with
      | empty =>
          rw [lookup_of_none_empty hv', lookup_of_none_empty hw']
          refine found.bind fun _ _ _ => ?_
          refine (Traced.Alike.record (.refl _)).bind fun _ _ _ => ?_
          exact .pure ⟨by simp [valueOf, hv], by simp [valueOf, hw]⟩
      | fail =>
          rw [lookup_of_none_fail hv', lookup_of_none_fail hw']
          refine found.bind fun _ _ _ => ?_
          exact (Traced.Alike.record (.refl _)).bind fun _ _ _ => .fail _

/-- The values that the lookups give for a body in brackets, which names a property. -/
def ReferenceAlike (context : Context) (v w : PropertyLookup) (body x y : List Char) : Prop :=
  (∃ r, Names body r) ∧ x = propertyText (withProperties context v) body ∧
    y = propertyText (withProperties context w) body

theorem resolveReference_alike (policy : MissingProperty)
    (h : ∀ space name, (v space name).isSome = (w space name).isSome) (body : List Char) :
    Traced.Alike SameButValue (ReferenceAlike context v w body)
      (resolveReference policy (withProperties context v) body)
      (resolveReference policy (withProperties context w) body) := by
  simp only [resolveReference, Reference.parse]
  cases hr : Reference.ofText? (trim body) with
  | none => exact .fail _
  | some r =>
      have hnames : Names body r := names_iff_ofText?.2 hr
      refine (lookup_alike policy r (h r.space r.name)).mono ?_
      rintro x y ⟨rfl, rfl⟩
      refine ⟨⟨r, hnames⟩, ?_, ?_⟩
      · exact (propertyText_withProperties context v hnames).symm
      · exact (propertyText_withProperties context w hnames).symm

/-- The segments of one layout, whose bodies name properties, with the values of each lookup. -/
def SegmentsAlike (context : Context) (v w : PropertyLookup) (x y : List Segment) : Prop :=
  ∃ l, Named l ∧ x = segments (withProperties context v) l ∧
    y = segments (withProperties context w) l

theorem resolveReferences_alike (policy : MissingProperty)
    (h : ∀ space name, (v space name).isSome = (w space name).isSome) (p : Pieces) :
    Traced.Alike SameButValue (SegmentsAlike context v w)
      (resolveReferences policy (withProperties context v) p)
      (resolveReferences policy (withProperties context w) p) := by
  induction p with
  | last s => exact .pure ⟨.last s, by simp [Named, Layout.bodies], rfl, rfl⟩
  | unclosed => exact .fail _
  | more s b rest ih =>
      simp only [resolveReferences]
      refine (resolveReference_alike policy h b).bind fun x y hxy => ?_
      refine ih.bind fun segs segs' hsegs => .pure ?_
      obtain ⟨hb, rfl, rfl⟩ := hxy
      obtain ⟨l, hl, rfl, rfl⟩ := hsegs
      refine ⟨.more s b l, ?_, rfl, rfl⟩
      simpa only [Named, Layout.bodies, List.mem_cons, forall_eq_or_imp] using ⟨hb, hl⟩

/-- One layout, whose bodies name properties, filled with the values of each lookup. -/
def FilledAlike (context : Context) (v w : PropertyLookup) (x y : List Char) : Prop :=
  ∃ l : Layout (List Char), Named l ∧ x = l.fill id (propertyText (withProperties context v)) ∧
    y = l.fill id (propertyText (withProperties context w))

theorem resolveDates_alike (now : Calendar.Moment) {l : Layout (List Char)} (h : Named l) :
    Traced.Alike SameButValue (FilledAlike context v w)
      (resolveDates now (segments (withProperties context v) l))
      (resolveDates now (segments (withProperties context w) l)) := by
  induction l with
  | last s =>
      simp only [segments, resolveDates]
      refine (Traced.Alike.refl SameButValue.refl _).bind fun x y hxy => ?_
      subst hxy
      refine (Traced.Alike.refl SameButValue.refl _).bind fun z z' hz => .pure ?_
      subst hz
      exact ⟨.last (x ++ z), by simp [Named, Layout.bodies], rfl, rfl⟩
  | more s b rest ih =>
      simp only [segments, resolveDates]
      -- The stretch before the value is the same text in both runs, so its dates are.
      refine (Traced.Alike.refl SameButValue.refl _).bind fun x x' hx => ?_
      subst hx
      have value : Traced.Alike SameButValue
          (fun z z' => ∃ y y', FilledAlike context v w y y' ∧
            z = propertyText (withProperties context v) b ++ y ∧
            z' = propertyText (withProperties context w) b ++ y') _ _ :=
        (ih h.rest).bind fun y y' hy => .pure ⟨y, y', hy, rfl, rfl⟩
      refine value.bind fun z z' hz => .pure ?_
      obtain ⟨y, y', ⟨m, hm, rfl, rfl⟩, rfl, rfl⟩ := hz
      refine ⟨.more x b m, ?_, ?_, ?_⟩
      · have hb : ∃ r, Names b r := h b (by simp [Layout.bodies])
        simpa only [Named, Layout.bodies, List.mem_cons, forall_eq_or_imp] using ⟨hb, hm⟩
      · simp only [Layout.fill, id, List.append_assoc]
      · simp only [Layout.fill, id, List.append_assoc]

theorem resolveText_alike (policy : MissingProperty) (now : Calendar.Moment)
    (h : ∀ space name, (v space name).isSome = (w space name).isSome) (text : List Char) :
    Traced.Alike SameButValue (FilledAlike context v w)
      (resolveText policy (withProperties context v) now text)
      (resolveText policy (withProperties context w) now text) := by
  refine (resolveReferences_alike policy h _).bind fun segs segs' hsegs => ?_
  obtain ⟨l, hl, rfl, rfl⟩ := hsegs
  exact resolveDates_alike now hl

/-- The tokens of a message do not depend on its properties. -/
theorem withTokens_withProperties (context : Context) (property : PropertyLookup)
    (now : Calendar.Moment) (template : List Char) :
    withTokens (withProperties context property) now template =
      withTokens context now template := by
  have hvalue : Token.value (withProperties context property) now = Token.value context now := by
    funext k
    cases k <;> rfl
  rw [withTokens, hvalue, withTokens]

theorem resolve_alike (policy : MissingProperty) (template : String) (now : Calendar.Moment)
    (h : ∀ space name, (v space name).isSome = (w space name).isSome) :
    Traced.Alike SameButValue
      (fun x y => ∃ first parts, x = String.ofList (spell v first parts) ∧
        y = String.ofList (spell w first parts))
      (resolve policy template (withProperties context v) now)
      (resolve policy template (withProperties context w) now) := by
  -- Both runs start from one text, so the lists of references and texts depend on its layout only.
  simp only [resolve, withTokens_withProperties]
  refine (resolveText_alike policy now h _).bind fun x y hxy => .pure ?_
  obtain ⟨l, hl, rfl, rfl⟩ := hxy
  obtain ⟨first, parts, hspell⟩ := exists_spell hl
  exact ⟨first, parts, by rw [hspell], by rw [hspell]⟩

end

/-- **Values cannot inject template syntax.** Two lookups that set the same properties, whatever
values they give, lead to the same result but for the values themselves. -/
theorem values_stay_literal (policy : MissingProperty) (template : String) (context : Context)
    (now : Calendar.Moment) (v w : PropertyLookup)
    (h : ∀ space name, (v space name).isSome = (w space name).isSome) :
    SameButValues context.id v w (resolve policy template (withProperties context v) now)
      (resolve policy template (withProperties context w) now) := by
  obtain ⟨htrail, hend⟩ := resolve_alike policy template now h
  refine ⟨?_, entries_alike htrail context.id⟩
  rcases Traced.sameEnd_cases hend with ⟨e, hv, hw⟩ | ⟨x, y, hv, hw, first, parts, rfl, rfl⟩
  · exact Or.inl ⟨e, hv, hw⟩
  · exact Or.inr ⟨first, parts, hv, hw⟩

/-- A template with a property whose value looks like template syntax in both runs: a reference to
the property itself in the one, an open date and a token in the other. -/
theorem values_stay_literal_at_syntax :
    (∀ space name, ((Properties.empty.insert "ns" "a" "[ns/a]").get? space name).isSome =
      ((Properties.empty.insert "ns" "a" "\x7byy%id").get? space name).isSome) ∧
    SameButValues "m" (Properties.empty.insert "ns" "a" "[ns/a]").get?
      (Properties.empty.insert "ns" "a" "\x7byy%id").get?
      (resolve .fail "[ns/a]-\x7byy\x7d-%id"
        (withProperties (Message.context { id := "m" })
          (Properties.empty.insert "ns" "a" "[ns/a]").get?) ⟨⟨0, 0⟩, .utc⟩)
      (resolve .fail "[ns/a]-\x7byy\x7d-%id"
        (withProperties (Message.context { id := "m" })
          (Properties.empty.insert "ns" "a" "\x7byy%id").get?) ⟨⟨0, 0⟩, .utc⟩) := by
  have h : ∀ space name, ((Properties.empty.insert "ns" "a" "[ns/a]").get? space name).isSome =
      ((Properties.empty.insert "ns" "a" "\x7byy%id").get? space name).isSome := by
    intro space name
    simp only [Properties.get?_insert]
    split <;> rfl
  exact ⟨h, values_stay_literal .fail "[ns/a]-\x7byy\x7d-%id" (Message.context { id := "m" })
    ⟨⟨0, 0⟩, .utc⟩ _ _ h⟩

end MessageArchive.Template
