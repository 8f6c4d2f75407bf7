import MessageArchive.Text.Utf8

set_option autoImplicit false

/-! # Maps from texts

A map from texts to values, kept in the order of its keys' bytes. Each key occurs once, so a map
is determined by what it answers (`TextMap.ext_get?`).
-/

namespace MessageArchive

open MessageArchive.Text

/-- A finite map from texts. Its entries are sorted by key. -/
structure TextMap (α : Type) where
  entries : List (String × α)
  sorted : entries.Pairwise (fun a b => before a.1 b.1 = true)
  deriving DecidableEq, Repr

namespace TextMap

variable {α : Type}

/-- The map without entries. -/
def empty : TextMap α := ⟨[], .nil⟩

/-- The value of a key in a list of entries. -/
def find? (key : String) : List (String × α) → Option α
  | [] => none
  | (k, v) :: rest => if k = key then some v else find? key rest

/-- Puts an entry in its place, instead of the one with the same key if there is one. -/
def insertEntry (key : String) (value : α) : List (String × α) → List (String × α)
  | [] => [(key, value)]
  | (k, v) :: rest =>
      if k = key then (key, value) :: rest
      else if before key k then (key, value) :: (k, v) :: rest
      else (k, v) :: insertEntry key value rest

theorem mem_insertEntry {key : String} {value : α} {entries : List (String × α)}
    {e : String × α} (h : e ∈ insertEntry key value entries) :
    e = (key, value) ∨ e ∈ entries := by
  induction entries with
  | nil => exact Or.inl (by simpa [insertEntry] using h)
  | cons entry rest ih =>
      obtain ⟨k, v⟩ := entry
      simp only [insertEntry] at h
      split at h
      · rcases List.mem_cons.1 h with h | h
        · exact Or.inl h
        · exact Or.inr (List.mem_cons_of_mem _ h)
      · split at h
        · exact (List.mem_cons.1 h)
        · rcases List.mem_cons.1 h with h | h
          · exact Or.inr (h ▸ List.mem_cons_self)
          · exact (ih h).imp_right (List.mem_cons_of_mem _)

theorem insertEntry_sorted (key : String) (value : α) {entries : List (String × α)}
    (h : entries.Pairwise (fun a b => before a.1 b.1 = true)) :
    (insertEntry key value entries).Pairwise (fun a b => before a.1 b.1 = true) := by
  induction entries with
  | nil => simp [insertEntry]
  | cons entry rest ih =>
      obtain ⟨k, v⟩ := entry
      obtain ⟨hk, hrest⟩ := List.pairwise_cons.1 h
      simp only [insertEntry]
      split
      next heq =>
        subst heq
        exact List.pairwise_cons.2 ⟨hk, hrest⟩
      next hne =>
        split
        next hlt =>
          refine List.pairwise_cons.2 ⟨?_, h⟩
          intro e he
          rcases List.mem_cons.1 he with he | he
          · exact he ▸ hlt
          · exact before_trans hlt (hk e he)
        next hnlt =>
          refine List.pairwise_cons.2 ⟨?_, ih hrest⟩
          intro e he
          rcases mem_insertEntry he with he | he
          · exact he ▸ (before_total hne).resolve_right hnlt
          · exact hk e he

/-- Puts an entry in its place. The first component is the value that was there, if there was one. -/
def exchangeEntry (key : String) (value : α) :
    List (String × α) → Option α × List (String × α)
  | [] => (none, [(key, value)])
  | (k, v) :: rest =>
      if k = key then (some v, (key, value) :: rest)
      else if before key k then (none, (key, value) :: (k, v) :: rest)
      else
        let (old, changed) := exchangeEntry key value rest
        (old, (k, v) :: changed)

theorem exchangeEntry_snd (key : String) (value : α) (entries : List (String × α)) :
    (exchangeEntry key value entries).2 = insertEntry key value entries := by
  induction entries with
  | nil => rfl
  | cons entry rest ih =>
      obtain ⟨k, v⟩ := entry
      simp only [exchangeEntry, insertEntry]
      split
      · rfl
      · split
        · rfl
        · rw [← ih]

theorem exchangeEntry_sorted (key : String) (value : α) {entries : List (String × α)}
    (h : entries.Pairwise (fun a b => before a.1 b.1 = true)) :
    (exchangeEntry key value entries).2.Pairwise (fun a b => before a.1 b.1 = true) := by
  rw [exchangeEntry_snd]
  exact insertEntry_sorted key value h

/-- The value of a key. -/
def get? (m : TextMap α) (key : String) : Option α := find? key m.entries

/-- The map with the key set to the value. -/
def insert (m : TextMap α) (key : String) (value : α) : TextMap α :=
  ⟨insertEntry key value m.entries, insertEntry_sorted key value m.sorted⟩

/-- Sets the key to the value. The first component is the value that it had, if it had one. -/
def exchange (m : TextMap α) (key : String) (value : α) : Option α × TextMap α :=
  let changed := exchangeEntry key value m.entries
  (changed.1, ⟨changed.2, exchangeEntry_sorted key value m.sorted⟩)

/-- The number of keys. -/
def size (m : TextMap α) : Nat := m.entries.length

/-- The map that takes each pair in turn, so that the last one of a key counts. -/
def ofList (pairs : List (String × α)) : TextMap α :=
  pairs.foldl (fun m pair => m.insert pair.1 pair.2) empty

@[simp] theorem get?_empty (key : String) : (empty : TextMap α).get? key = none := rfl

theorem find?_insertEntry (key : String) (value : α) (k : String)
    (entries : List (String × α)) :
    find? k (insertEntry key value entries) =
      if key = k then some value else find? k entries := by
  induction entries with
  | nil => simp [insertEntry, find?]
  | cons entry rest ih =>
      obtain ⟨k', v'⟩ := entry
      simp only [insertEntry]
      split
      next heq =>
        subst heq
        simp only [find?]
        split <;> simp_all
      next hne =>
        split
        · simp only [find?]
        · simp only [find?, ih]
          split
          next heq =>
            subst heq
            simp [Ne.symm hne]
          · rfl

theorem get?_insert (m : TextMap α) (key : String) (value : α) (k : String) :
    (m.insert key value).get? k = if key = k then some value else m.get? k :=
  find?_insertEntry key value k m.entries

@[simp] theorem get?_insert_self (m : TextMap α) (key : String) (value : α) :
    (m.insert key value).get? key = some value := by
  simp [get?_insert]

/-- A key that comes before all others is the key of no entry. -/
theorem find?_eq_none_of_before {key : String} {entries : List (String × α)}
    (h : ∀ e ∈ entries, before key e.1 = true) : find? key entries = none := by
  induction entries with
  | nil => rfl
  | cons entry rest ih =>
      have hne : entry.1 ≠ key := by
        intro heq
        have := h entry List.mem_cons_self
        rw [heq, before_irrefl] at this
        exact absurd this (by simp)
      simp [find?, hne, ih fun e he => h e (List.mem_cons_of_mem _ he)]

/-- In sorted entries the value of a key is not behind the place where the key belongs. -/
theorem exchangeEntry_fst (key : String) (value : α) {entries : List (String × α)}
    (h : entries.Pairwise (fun a b => before a.1 b.1 = true)) :
    (exchangeEntry key value entries).1 = find? key entries := by
  induction entries with
  | nil => rfl
  | cons entry rest ih =>
      obtain ⟨hbefore, hrest⟩ := List.pairwise_cons.1 h
      simp only [exchangeEntry, find?]
      split
      · rfl
      · split
        next hlt =>
          exact (find?_eq_none_of_before fun e he => before_trans hlt (hbefore e he)).symm
        · exact ih hrest

theorem exchange_eq (m : TextMap α) (key : String) (value : α) :
    m.exchange key value = (m.get? key, m.insert key value) := by
  have hold := exchangeEntry_fst key value m.sorted
  have hnew := exchangeEntry_snd key value m.entries
  simp only [exchange, hold, hnew, get?, insert]

theorem entries_ext {a b : List (String × α)}
    (ha : a.Pairwise (fun x y => before x.1 y.1 = true))
    (hb : b.Pairwise (fun x y => before x.1 y.1 = true))
    (h : ∀ key, find? key a = find? key b) : a = b := by
  induction a generalizing b with
  | nil =>
      cases b with
      | nil => rfl
      | cons e b => exact absurd (h e.1) (by simp [find?])
  | cons e a ih =>
      cases b with
      | nil => exact absurd (h e.1) (by simp [find?])
      | cons f b =>
          obtain ⟨he, ha⟩ := List.pairwise_cons.1 ha
          obtain ⟨hf, hb⟩ := List.pairwise_cons.1 hb
          have hkey : e.1 = f.1 := by
            by_cases hne : e.1 = f.1
            · exact hne
            rcases before_total hne with hlt | hlt
            · have h1 := h e.1
              rw [@find?_eq_none_of_before _ e.1 (f :: b)] at h1
              · exact absurd h1 (by simp [find?])
              · intro g hg
                rcases List.mem_cons.1 hg with rfl | hg
                · exact hlt
                · exact before_trans hlt (hf g hg)
            · have h1 := h f.1
              rw [@find?_eq_none_of_before _ f.1 (e :: a)] at h1
              · exact absurd h1 (by simp [find?])
              · intro g hg
                rcases List.mem_cons.1 hg with rfl | hg
                · exact hlt
                · exact before_trans hlt (he g hg)
          have hvalue : e.2 = f.2 := by
            have h1 := h e.1
            rw [hkey] at h1
            simpa [find?, hkey] using h1
          have htail : a = b := by
            refine ih ha hb fun key => ?_
            by_cases hk : e.1 = key
            · rw [find?_eq_none_of_before (hk ▸ he), find?_eq_none_of_before (hk ▸ hkey ▸ hf)]
            · have h1 := h key
              simpa [find?, hk, hkey ▸ hk] using h1
          rw [htail, show e = f from Prod.ext hkey hvalue]

/-- Two maps with the same answers are the same map. -/
theorem ext_get? {m n : TextMap α} (h : ∀ key, m.get? key = n.get? key) : m = n := by
  have := entries_ext m.sorted n.sorted h
  cases m
  cases n
  simp_all

/-- Of entries with different keys that are put in one after the other, each is found. -/
theorem get?_foldl_insert {entries : List (String × α)}
    (h : entries.Pairwise (fun a b => before a.1 b.1 = true)) (m : TextMap α) (key : String) :
    (entries.foldl (fun m e => m.insert e.1 e.2) m).get? key =
      (find? key entries).or (m.get? key) := by
  induction entries generalizing m with
  | nil => rfl
  | cons entry rest ih =>
      obtain ⟨hbefore, hrest⟩ := List.pairwise_cons.1 h
      rw [List.foldl_cons, ih hrest, get?_insert, find?]
      by_cases hkey : entry.1 = key
      · subst hkey
        simp [find?_eq_none_of_before hbefore]
      · simp [hkey]

/-- A map is made from its entries. -/
theorem ofList_entries (m : TextMap α) : ofList m.entries = m := by
  refine ext_get? fun key => ?_
  rw [ofList, get?_foldl_insert m.sorted, get?_empty, Option.or_none, get?]

end TextMap

end MessageArchive
