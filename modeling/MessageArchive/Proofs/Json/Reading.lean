import MessageArchive.Json.Value
import MessageArchive.Proofs.Json.Lexing

set_option autoImplicit false

/-! # Reading JSON texts

The machine that puts tokens together reads what the grammar describes. A value leaves the arrays
and objects that are open as they are (`ReadsAs`); items and members are put into the innermost one,
in front of the last of them, which is still in hand (`ReadsItems`, `ReadsMembers`). Each rule of the
grammar keeps this, so every JSON value is read, however deep it is nested (`IsJson.isRead`), and an
object with known members is read as these members in their order (`IsObject.reads`).
-/

namespace MessageArchive.Json

/-! ## Runs -/

theorem Machine.run_append (m : Machine) (ts ts' : List Token) :
    m.run (ts ++ ts') = (m.run ts).bind fun m' => m'.run ts' := by
  induction ts generalizing m with
  | nil => rfl
  | cons t ts ih =>
      rw [List.cons_append, Machine.run, Machine.run]
      cases m.step t with
      | none => rfl
      | some m' => exact ih m'

/-- A run over two stretches of tokens with one token between them. -/
theorem Machine.run_between {m₁ m₂ m₃ m₄ : Machine} {ts ts' : List Token} {t : Token}
    (h : m₁.run ts = some m₂) (hstep : m₂.step t = some m₃) (h' : m₃.run ts' = some m₄) :
    m₁.run (ts ++ t :: ts') = some m₄ := by
  rw [Machine.run_append, h, Option.bind_some, Machine.run, hstep]
  exact h'

/-- What follows an opening bracket begins with an item, if it is not the closing bracket. -/
theorem Machine.run_firstItem {frames frames' : List Frame} {ts : List Token} {v : Value}
    (h : Machine.run ⟨.array [] :: frames, .value⟩ ts = some ⟨frames', .after v⟩) :
    Machine.run ⟨frames, .firstItem⟩ ts = some ⟨frames', .after v⟩ := by
  cases ts with
  | nil => cases h
  | cons t ts =>
      cases t with
      | closeBracket => cases h
      | _ => exact h

/-- What follows an opening brace begins with a name, if it is not the closing brace. -/
theorem Machine.run_firstName {frames frames' : List Frame} {ts : List Token} {v : Value}
    (h : Machine.run ⟨frames, .name []⟩ ts = some ⟨frames', .after v⟩) :
    Machine.run ⟨frames, .firstName⟩ ts = some ⟨frames', .after v⟩ := by
  cases ts with
  | nil => cases h
  | cons t ts =>
      cases t with
      | string => exact h
      | _ => cases h

/-! ## Values, items and members -/

/-- The text is read as the value, whatever is open around it. -/
def ReadsAs (s : List Char) (v : Value) : Prop :=
  ∃ ts, Lexes s ts ∧ ∀ frames, Machine.run ⟨frames, .value⟩ ts = some ⟨frames, .after v⟩

/-- The text is read as the items, behind those that are there. The last one is still in hand. -/
def ReadsItems (s : List Char) (items : List Value) : Prop :=
  ∃ ts before last, items = before ++ [last] ∧ Lexes s ts ∧ ∀ frames done,
    Machine.run ⟨.array done :: frames, .value⟩ ts =
      some ⟨.array (before.reverse ++ done) :: frames, .after last⟩

/-- The text is read as the members, behind those that are there. The value of the last one is still
in hand. -/
def ReadsMembers (s : List Char) (members : List (Option String × Value)) : Prop :=
  ∃ ts before name last, members = before ++ [(name, last)] ∧ Lexes s ts ∧ ∀ frames done,
    Machine.run ⟨frames, .name done⟩ ts =
      some ⟨.object (before.reverse ++ done) name :: frames, .after last⟩

variable {s s' core : List Char} {v : Value} {items items' : List Value}
  {members members' : List (Option String × Value)}

theorem ReadsAs.padded (h : ReadsAs core v) (hpadded : Padded core s) : ReadsAs s v := by
  obtain ⟨ts, hlexes, hrun⟩ := h
  exact ⟨ts, hlexes.padded hpadded, hrun⟩

theorem ReadsAs.item (h : ReadsAs s v) : ReadsItems s [v] := by
  obtain ⟨ts, hlexes, hrun⟩ := h
  exact ⟨ts, [], v, rfl, hlexes, fun _ _ => hrun _⟩

theorem ReadsItems.append (h : ReadsItems s items) (h' : ReadsItems s' items') :
    ReadsItems (s ++ ',' :: s') (items ++ items') := by
  obtain ⟨ts, before, last, rfl, hlexes, hrun⟩ := h
  obtain ⟨ts', before', last', rfl, hlexes', hrun'⟩ := h'
  refine ⟨ts ++ .comma :: ts', before ++ last :: before', last', by simp,
    hlexes.punctuated rfl hlexes', fun frames done => ?_⟩
  have hnext := hrun' frames (last :: (before.reverse ++ done))
  rw [Machine.run_between (hrun frames done) rfl hnext]
  simp

theorem readsAs_emptyArray (h : Gap s) : ReadsAs ('[' :: (s ++ [']'])) (.array []) :=
  ⟨_, h.lexes.enclosed rfl rfl, fun _ => rfl⟩

theorem ReadsItems.array (h : ReadsItems s items) : ReadsAs ('[' :: (s ++ [']'])) (.array items) := by
  obtain ⟨ts, before, last, rfl, hlexes, hrun⟩ := h
  refine ⟨_, hlexes.enclosed rfl rfl, fun frames => ?_⟩
  have hitems := Machine.run_firstItem (hrun frames [])
  rw [Machine.run]
  exact Machine.run_between hitems (by simp [Machine.step]) rfl

/-- A member, given how its name and its value are read. -/
theorem ReadsAs.member {string before : List Char} {name : Option String}
    (hname : Lexes string [.string name]) (hbefore : Padded string before) (h : ReadsAs s v) :
    ReadsMembers (before ++ ':' :: s) [(name, v)] := by
  obtain ⟨ts, hlexes, hrun⟩ := h
  exact ⟨_, [], name, v, rfl, (hname.padded hbefore).punctuated rfl hlexes, fun _ _ => hrun _⟩

theorem ReadsMembers.append (h : ReadsMembers s members) (h' : ReadsMembers s' members') :
    ReadsMembers (s ++ ',' :: s') (members ++ members') := by
  obtain ⟨ts, before, name, last, rfl, hlexes, hrun⟩ := h
  obtain ⟨ts', before', name', last', rfl, hlexes', hrun'⟩ := h'
  refine ⟨ts ++ .comma :: ts', before ++ (name, last) :: before', name', last', by simp,
    hlexes.punctuated rfl hlexes', fun frames done => ?_⟩
  have hnext := hrun' frames ((name, last) :: (before.reverse ++ done))
  rw [Machine.run_between (hrun frames done) rfl hnext]
  simp

theorem readsAs_emptyObject (h : Gap s) : ReadsAs ('\x7b' :: (s ++ ['\x7d'])) (.object []) :=
  ⟨_, h.lexes.enclosed rfl rfl, fun _ => rfl⟩

theorem ReadsMembers.object (h : ReadsMembers s members) :
    ReadsAs ('\x7b' :: (s ++ ['\x7d'])) (.object members) := by
  obtain ⟨ts, before, name, last, rfl, hlexes, hrun⟩ := h
  refine ⟨_, hlexes.enclosed rfl rfl, fun frames => ?_⟩
  have hmembers := Machine.run_firstName (hrun frames [])
  rw [Machine.run]
  exact Machine.run_between hmembers (by simp [Machine.step]) rfl

/-! ## JSON is read -/

/-- Some value, some items or some members are read. -/
def Part.IsRead : Part → List Char → Prop
  | .value, s => ∃ v, ReadsAs s v
  | .items, s => ∃ items, ReadsItems s items
  | .members, s => ∃ members, ReadsMembers s members

/-- Every text of the grammar is read. -/
theorem IsJson.isRead {part : Part} (h : IsJson part s) : part.IsRead s := by
  -- One step for each rule of the grammar.
  induction h with
  | null => exact ⟨.null, _, lexes_null, fun _ => rfl⟩
  | true => exact ⟨.bool .true, _, lexes_true, fun _ => rfl⟩
  | false => exact ⟨.bool .false, _, lexes_false, fun _ => rfl⟩
  | number hnumber => exact ⟨.number, _, hnumber.lexes, fun _ => rfl⟩
  | string hstring => exact ⟨.string _, _, hstring.lexes, fun _ => rfl⟩
  | emptyArray hgap => exact ⟨_, readsAs_emptyArray hgap⟩
  | array _ ih =>
      obtain ⟨items, hitems⟩ := ih
      exact ⟨_, hitems.array⟩
  | emptyObject hgap => exact ⟨_, readsAs_emptyObject hgap⟩
  | object _ ih =>
      obtain ⟨members, hmembers⟩ := ih
      exact ⟨_, hmembers.object⟩
  | item _ hpadded ih =>
      obtain ⟨v, hv⟩ := ih
      exact ⟨_, (hv.padded hpadded).item⟩
  | moreItems _ _ ih ih' =>
      obtain ⟨items, hitems⟩ := ih
      obtain ⟨items', hitems'⟩ := ih'
      exact ⟨_, hitems.append hitems'⟩
  | member hstring hbefore _ hpadded ih =>
      obtain ⟨v, hv⟩ := ih
      exact ⟨_, ReadsAs.member hstring.lexes hbefore (hv.padded hpadded)⟩
  | moreMembers _ _ ih ih' =>
      obtain ⟨members, hmembers⟩ := ih
      obtain ⟨members', hmembers'⟩ := ih'
      exact ⟨_, hmembers.append hmembers'⟩

/-- A whole text is read as its value. -/
theorem ReadsAs.read?_eq (h : ReadsAs s v) : read? (String.ofList s) = some v := by
  obtain ⟨ts, hlexes, hrun⟩ := h
  rw [read?, String.toList_ofList, hlexes.tokens?_eq, Option.bind_some, ofTokens?, hrun]

/-- The value that a text is read as. -/
def valueOf (s : List Char) : Value := (read? (String.ofList s)).getD .null

theorem ReadsAs.valueOf_eq (h : ReadsAs s v) : valueOf s = v := by
  rw [valueOf, h.read?_eq, Option.getD_some]

/-- A JSON value is read as one value, the same in every place. -/
theorem IsValue.reads (h : IsValue s) : ReadsAs s (valueOf s) := by
  obtain ⟨v, hv⟩ : ∃ v, ReadsAs s v := IsJson.isRead h
  rwa [hv.valueOf_eq]

/-! ## Objects with known members -/

theorem AreMembers.reads {ms : List (String × List Char)} (h : AreMembers ms s)
    (hvalues : ∀ m ∈ ms, ReadsAs m.2 (valueOf m.2)) :
    ReadsMembers s (ms.map fun m => (some m.1, valueOf m.2)) := by
  induction h with
  | one hname hbefore hpadded =>
      have hvalue := hvalues _ List.mem_cons_self
      exact ReadsAs.member hname.lexes hbefore (hvalue.padded hpadded)
  | more _ _ ih ih' =>
      have hmembers := ih fun m hm => hvalues m (List.mem_append_left _ hm)
      have hfollowing := ih' fun m hm => hvalues m (List.mem_append_right _ hm)
      rw [List.map_append]
      exact hmembers.append hfollowing

theorem IsObject.reads {ms : List (String × List Char)} (h : IsObject ms s)
    (hvalues : ∀ m ∈ ms, ReadsAs m.2 (valueOf m.2)) :
    ReadsAs s (.object (ms.map fun m => (some m.1, valueOf m.2))) := by
  obtain ⟨inner, hpadded, ⟨rfl, hgap⟩ | hmembers⟩ := h
  · exact (readsAs_emptyObject hgap).padded hpadded
  · exact (hmembers.reads hvalues).object.padded hpadded

end MessageArchive.Json
