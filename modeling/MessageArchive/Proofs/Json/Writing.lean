import MessageArchive.Envelope
import MessageArchive.Proofs.Json.Reading

set_option autoImplicit false

/-! # Written JSON is read back

A text comes back from each string that spells it (`Spells.reads`). A map that is written as an
object, each key with its value, is read as the members that its entries are; these make up the same
map again as soon as its values come back (`map?_entriesValue`). So the names of a namespace come back, and
then all properties (`properties?_ofProperties`).
-/

namespace MessageArchive.Json

/-! ## Strings -/

theorem Spells.isValue {s : List Char} {text : String} (h : Spells s text) : IsValue s := by
  obtain ⟨parts, hstring, -⟩ := h
  exact .string hstring

theorem Spells.reads {s : List Char} {text : String} (h : Spells s text) :
    ReadsAs s (.string (some text)) :=
  ⟨_, h.lexes, fun _ => rfl⟩

theorem Spells.text?_eq {s : List Char} {text : String} (h : Spells s text) :
    (valueOf s).text? = some text := by
  rw [h.reads.valueOf_eq]
  rfl

/-! ## Maps -/

/-- A map as an object, given how its values are written. -/
def ofEntries {α : Type} (write : α → List Char) (m : TextMap α) : List Char :=
  braced (m.entries.map fun entry => member entry.1 (write entry.2))

/-- The value that a map is written as, given the values that its own are written as. -/
def entriesValue {α : Type} (value : α → Value) (m : TextMap α) : Value :=
  .object (m.entries.map fun entry => (some entry.1, value entry.2))

variable {α : Type} {write : α → List Char} {value : α → Value} {f : Value → Option α}

theorem reads_ofEntries (h : ∀ a, ReadsAs (write a) (value a)) (m : TextMap α) :
    ReadsAs (ofEntries write m) (entriesValue value m) := by
  have hobject := isObject_braced (m.entries.map fun entry => (entry.1, write entry.2))
  have hreads := hobject.reads (by
    intro member hmember
    obtain ⟨entry, -, rfl⟩ := List.mem_map.1 hmember
    rw [(h entry.2).valueOf_eq]
    exact h entry.2)
  rw [List.map_map, List.map_map] at hreads
  have hmembers : (fun entry : String × α => (some entry.1, value entry.2)) =
      (fun m => (some m.1, valueOf m.2)) ∘ fun entry => (entry.1, write entry.2) := by
    funext entry
    simp [(h entry.2).valueOf_eq]
  rw [entriesValue, hmembers]
  exact hreads

theorem readMap_entries (h : ∀ a, f (value a) = some a) (entries : List (String × α))
    (m : TextMap α) :
    readMap f (entries.map fun entry => (some entry.1, value entry.2)) m =
      some (entries.foldl (fun m entry => m.insert entry.1 entry.2) m) := by
  induction entries generalizing m with
  | nil => rfl
  | cons entry rest ih =>
      rw [List.map_cons, readMap, h, Option.bind_some, ih, List.foldl_cons]

/-- A map comes back from the value that it is written as, if its own values do. -/
theorem map?_entriesValue (h : ∀ a, f (value a) = some a) (m : TextMap α) :
    (entriesValue value m).map? f = some m := by
  rw [entriesValue, Value.map?, readMap_entries h, ← TextMap.ofList, TextMap.ofList_entries]

/-- The value that the names of a namespace are written as. -/
def namesValue : TextMap String → Value := entriesValue fun text => .string (some text)

theorem reads_ofProperties (p : Properties) :
    ReadsAs (ofProperties p) (entriesValue namesValue p.byNamespace) := by
  have hnames : ∀ names, ReadsAs (ofNames names) (namesValue names) :=
    reads_ofEntries fun text => (spells_quote text).reads
  exact reads_ofEntries hnames p.byNamespace

theorem properties?_ofProperties (p : Properties) :
    (valueOf (ofProperties p)).properties? = some p := by
  have hnames : ∀ names, (namesValue names).map? Value.text? = some names :=
    map?_entriesValue fun _ => rfl
  rw [(reads_ofProperties p).valueOf_eq, Value.properties?, map?_entriesValue hnames]
  rfl

end MessageArchive.Json
