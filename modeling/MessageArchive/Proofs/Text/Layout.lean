import MessageArchive.Text.Enclosed

set_option autoImplicit false

/-! # Layouts

A text with placeholders is made of stretches of text and of bodies in delimiters, in turn:

    s₀ (b₁) s₁ … (bₙ) sₙ

A `Layout` is such a sequence. It is *read* in a text when the text is the layout written down,
no stretch holds the opener and no body holds the closer. `Pieces.ofText` finds the layout of a
text (`reads_iff_layout?`), so a text has at most one (`Reads.unique`). The stretches can be of any
type, since the stretches of one layout may be layouts with delimiters of their own.
-/

namespace MessageArchive.Text

/-- Stretches, with a body between each two of them. -/
inductive Layout (α : Type) where
  | last (stretch : α)
  | more (stretch : α) (body : List Char) (rest : Layout α)
  deriving DecidableEq, Repr

/-- A body between its delimiters. -/
def enclose (opener closer : Char) (body : List Char) : List Char := opener :: (body ++ [closer])

namespace Layout

variable {α β : Type}

/-- The stretches from left to right. -/
def stretches : Layout α → List α
  | .last s => [s]
  | .more s _ rest => s :: rest.stretches

/-- The bodies from left to right. -/
def bodies : Layout α → List (List Char)
  | .last _ => []
  | .more _ b rest => b :: rest.bodies

/-- The text that has something in the place of each stretch and of each body. -/
def fill (stretch : α → List Char) (body : List Char → List Char) : Layout α → List Char
  | .last s => stretch s
  | .more s b rest => stretch s ++ body b ++ rest.fill stretch body

/-- The layout with other stretches. -/
def map (f : α → β) : Layout α → Layout β
  | .last s => .last (f s)
  | .more s b rest => .more (f s) b (rest.map f)

/-- The layout as a text. -/
def write (opener closer : Char) (l : Layout (List Char)) : List Char :=
  l.fill id (enclose opener closer)

/-- The text is the layout written down, and its delimiters are those that a reader finds who goes
from each opener to the first closer after it. -/
structure Reads (opener closer : Char) (l : Layout (List Char)) (text : List Char) : Prop where
  written : l.write opener closer = text
  stretches : ∀ s ∈ l.stretches, opener ∉ s
  bodies : ∀ b ∈ l.bodies, closer ∉ b

/-! ## Other stretches -/

theorem fill_map (f : α → β) (stretch : β → List Char) (body : List Char → List Char)
    (l : Layout α) : (l.map f).fill stretch body = l.fill (fun s => stretch (f s)) body := by
  induction l with
  | last s => rfl
  | more s b rest ih => simp only [map, fill, ih]

theorem stretches_map (f : α → β) (l : Layout α) : (l.map f).stretches = l.stretches.map f := by
  induction l with
  | last s => rfl
  | more s b rest ih => simp only [map, stretches, ih, List.map_cons]

theorem bodies_map (f : α → β) (l : Layout α) : (l.map f).bodies = l.bodies := by
  induction l with
  | last s => rfl
  | more s b rest ih => simp only [map, bodies, ih]

/-- Each character of a layout that is filled in comes from a stretch or from a body. -/
theorem mem_fill_iff {stretch : α → List Char} {body : List Char → List Char} {l : Layout α}
    {c : Char} :
    c ∈ l.fill stretch body ↔ (∃ s ∈ l.stretches, c ∈ stretch s) ∨ ∃ b ∈ l.bodies, c ∈ body b := by
  induction l with
  | last s => simp [fill, stretches, bodies]
  | more s b rest ih =>
      simp only [fill, stretches, bodies, List.mem_append, ih, List.mem_cons, exists_eq_or_imp]
      exact or_or_or_comm

/-- A function that tells certain stretches apart tells the layouts made of them apart. -/
theorem map_inj_on {f : α → β} {l m : Layout α} (h : l.map f = m.map f)
    (hf : ∀ s ∈ l.stretches, ∀ s' ∈ m.stretches, f s = f s' → s = s') : l = m := by
  induction l generalizing m with
  | last s =>
      cases m with
      | last s' =>
          have hs : f s = f s' := by simpa [map] using h
          rw [hf s (by simp [stretches]) s' (by simp [stretches]) hs]
      | more s' b' rest' => simp [map] at h
  | more s b rest ih =>
      cases m with
      | last s' => simp [map] at h
      | more s' b' rest' =>
          simp only [map, more.injEq] at h
          obtain ⟨hs, rfl, hrest⟩ := h
          have h1 : s = s' := hf s (by simp [stretches]) s' (by simp [stretches]) hs
          have h2 : rest = rest' := ih hrest fun x hx y hy =>
            hf x (by simp [stretches, hx]) y (by simp [stretches, hy])
          rw [h1, h2]

/-! ## Reading -/

theorem reads_last_iff {opener closer : Char} {s text : List Char} :
    (Layout.last s).Reads opener closer text ↔ cut opener closer text = .absent ∧ text = s := by
  rw [cut_eq_absent_iff]
  constructor
  · rintro ⟨rfl, hs, -⟩
    exact ⟨hs s (by simp [Layout.stretches]), rfl⟩
  · rintro ⟨hs, rfl⟩
    exact ⟨rfl, by simpa [Layout.stretches] using hs, by simp [Layout.bodies]⟩

theorem reads_more_iff {opener closer : Char} {s b text : List Char}
    {rest : Layout (List Char)} :
    (Layout.more s b rest).Reads opener closer text ↔
      ∃ after, cut opener closer text = .found s b after ∧ rest.Reads opener closer after := by
  simp only [cut_eq_found_iff]
  constructor
  · rintro ⟨rfl, hs, hb⟩
    simp only [Layout.stretches, Layout.bodies, List.mem_cons, forall_eq_or_imp] at hs hb
    refine ⟨rest.write opener closer, ⟨?_, hs.1, hb.1⟩, rfl, hs.2, hb.2⟩
    simp [write, fill, enclose]
  · rintro ⟨after, ⟨rfl, hs, hb⟩, rfl, hrest, hrest'⟩
    refine ⟨?_, ?_, ?_⟩
    · simp [write, fill, enclose]
    · simpa only [Layout.stretches, List.mem_cons, forall_eq_or_imp] using ⟨hs, hrest⟩
    · simpa only [Layout.bodies, List.mem_cons, forall_eq_or_imp] using ⟨hb, hrest'⟩

end Layout

/-- The layout of a text that is cut at its placeholders, unless one of them is not closed. -/
def Pieces.layout? : Pieces → Option (Layout (List Char))
  | .last s => some (.last s)
  | .unclosed => none
  | .more s b rest => rest.layout?.map (.more s b)

namespace Layout

/-- A text is cut into the one layout that is read in it. -/
theorem reads_iff_layout? {opener closer : Char} {l : Layout (List Char)} {text : List Char} :
    l.Reads opener closer text ↔ (Pieces.ofText opener closer text).layout? = some l := by
  -- The induction is on the layout, with the text that is left after each body.
  induction l generalizing text with
  | last s =>
      rw [reads_last_iff]
      cases h : cut opener closer text with
      | absent => simp [Pieces.ofText_of_absent h, Pieces.layout?]
      | unclosed => simp [Pieces.ofText_of_unclosed h, Pieces.layout?]
      | found before body after => simp [Pieces.ofText_of_found h, Pieces.layout?]
  | more s b rest ih =>
      rw [reads_more_iff]
      cases h : cut opener closer text with
      | absent => simp [Pieces.ofText_of_absent h, Pieces.layout?]
      | unclosed => simp [Pieces.ofText_of_unclosed h, Pieces.layout?]
      | found before body after =>
          simp only [Pieces.ofText_of_found h, Pieces.layout?, Option.map_eq_some_iff,
            Cut.found.injEq, more.injEq, ih]
          constructor
          · rintro ⟨after', ⟨rfl, rfl, rfl⟩, hrest⟩
            exact ⟨rest, hrest, rfl, rfl, rfl⟩
          · rintro ⟨rest', hrest, rfl, rfl, rfl⟩
            exact ⟨after, ⟨rfl, rfl, rfl⟩, hrest⟩

/-- A text has at most one layout. -/
theorem Reads.unique {opener closer : Char} {l m : Layout (List Char)} {text : List Char}
    (hl : l.Reads opener closer text) (hm : m.Reads opener closer text) : l = m := by
  rw [reads_iff_layout?] at hl hm
  exact Option.some.inj (hl.symm.trans hm)

/-! ## One layout behind another -/

variable {α : Type} {join : α → α → α}

/-- The second layout behind the first. The last stretch of the first and the first stretch of the
second are joined. -/
def append (join : α → α → α) : Layout α → Layout α → Layout α
  | .last s, .last t => .last (join s t)
  | .last s, .more t b rest => .more (join s t) b rest
  | .more s b rest, m => .more s b (rest.append join m)

theorem bodies_append (l m : Layout α) : (l.append join m).bodies = l.bodies ++ m.bodies := by
  induction l with
  | last s =>
      cases m with
      | last t => rfl
      | more t b rest => rfl
  | more s b rest ih => simp only [append, bodies, ih, List.cons_append]

/-- A property of stretches that is kept when two are joined. -/
theorem forall_stretches_append {P : α → Prop} {l m : Layout α}
    (hjoin : ∀ s t, P s → P t → P (join s t)) (hl : ∀ s ∈ l.stretches, P s)
    (hm : ∀ t ∈ m.stretches, P t) : ∀ s ∈ (l.append join m).stretches, P s := by
  induction l with
  | last s =>
      have hs : P s := hl s (by simp [stretches])
      cases m with
      | last t => simpa [append, stretches] using hjoin s t hs (hm t (by simp [stretches]))
      | more t b rest =>
          simp only [stretches, List.mem_cons, forall_eq_or_imp] at hm
          simpa only [append, stretches, List.mem_cons, forall_eq_or_imp] using
            ⟨hjoin s t hs hm.1, hm.2⟩
  | more s b rest ih =>
      simp only [stretches, List.mem_cons, forall_eq_or_imp] at hl
      simpa only [append, stretches, List.mem_cons, forall_eq_or_imp] using ⟨hl.1, ih hl.2⟩

/-- What is filled in for two joined stretches is what is filled in for the one and for the other,
so this holds of whole layouts. -/
theorem fill_append {stretch : α → List Char} {body : List Char → List Char}
    (hjoin : ∀ s t, stretch (join s t) = stretch s ++ stretch t) (l m : Layout α) :
    (l.append join m).fill stretch body = l.fill stretch body ++ m.fill stretch body := by
  induction l with
  | last s =>
      cases m with
      | last t => exact hjoin s t
      | more t b rest => simp only [append, fill, hjoin, List.append_assoc]
  | more s b rest ih => simp only [append, fill, ih, List.append_assoc]

end Layout

end MessageArchive.Text
