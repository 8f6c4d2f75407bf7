import Mathlib.Data.Finset.Card
import MessageArchive.Json.Quoted
import MessageArchive.Properties

set_option autoImplicit false

/-! # Properties as a finite map

A set of properties is built by calls, each of which sets the property of a namespace and a name. It
answers for each such pair with the value of the last call (`get?_ofCalls`), and it has as many
properties as there are pairs (`size_ofCalls`).

No namespace is made without a name in it, and none loses its last one (`Peopled.insert`). So nothing
is in the set but what it answers, and two sets with the same answers are the same set
(`Peopled.ext`). The order of calls then matters for one pair only: calls for different pairs can be
exchanged.
-/

namespace MessageArchive

open MessageArchive.Text

namespace Text

/-- The order of texts is the order of their lists of bytes, byte by byte from the left. -/
theorem bytesBefore_iff_lt {s t : List UInt8} : bytesBefore s t = true ↔ s < t := by
  induction s generalizing t with
  | nil => cases t <;> simp [bytesBefore]
  | cons a s ih =>
      cases t with
      | nil => simp [bytesBefore]
      | cons b t => simp [bytesBefore, ih, List.cons_lt_cons_iff]

theorem before_iff_lt {s t : String} : before s t = true ↔ utf8 s < utf8 t := bytesBefore_iff_lt

end Text

/-! ## Maps from texts -/

namespace TextMap

variable {α : Type}

/-- The keys of a map, in the order in which they are kept. -/
def keys (m : TextMap α) : List String := m.entries.map Prod.fst

theorem keys_increasing (m : TextMap α) : (m.keys.map utf8).Pairwise (· < ·) := by
  rw [keys, List.map_map, List.pairwise_map]
  exact m.sorted.imp fun h => before_iff_lt.1 h

theorem keys_nodup (m : TextMap α) : m.keys.Nodup := by
  rw [keys, List.Nodup, List.pairwise_map]
  refine m.sorted.imp fun h heq => ?_
  rw [heq, before_irrefl] at h
  cases h

/-- Where keys are sorted, an entry is found by its key. -/
theorem find?_eq_some_iff {key : String} {value : α} {entries : List (String × α)}
    (h : entries.Pairwise (fun a b => before a.1 b.1 = true)) :
    find? key entries = some value ↔ (key, value) ∈ entries := by
  induction entries with
  | nil => simp [find?]
  | cons entry rest ih =>
      obtain ⟨hbefore, hrest⟩ := List.pairwise_cons.1 h
      rw [find?, List.mem_cons]
      split
      next hkey =>
        subst hkey
        -- No later entry has this key.
        have hnone := find?_eq_none_of_before hbefore
        rw [← ih hrest, hnone]
        simp [Prod.ext_iff, eq_comm]
      next hkey =>
        rw [ih hrest]
        simp [Prod.ext_iff, Ne.symm hkey]

theorem get?_eq_some_iff {m : TextMap α} {key : String} {value : α} :
    m.get? key = some value ↔ (key, value) ∈ m.entries :=
  find?_eq_some_iff m.sorted

theorem mem_keys_iff {m : TextMap α} {key : String} : key ∈ m.keys ↔ (m.get? key).isSome := by
  rw [keys, List.mem_map, Option.isSome_iff_exists]
  constructor
  · rintro ⟨⟨k, value⟩, hmem, rfl⟩
    exact ⟨value, get?_eq_some_iff.2 hmem⟩
  · rintro ⟨value, hvalue⟩
    exact ⟨(key, value), get?_eq_some_iff.1 hvalue, rfl⟩

end TextMap

namespace Properties

variable {p q : Properties}

/-! ## Pairs that are set -/

/-- The pairs of a namespace and a name that are set, in the order in which they are kept. -/
def pairs (p : Properties) : List (String × String) :=
  p.byNamespace.entries.flatMap fun entry => entry.2.keys.map fun name => (entry.1, name)

theorem mem_pairs_iff {space name : String} :
    (space, name) ∈ p.pairs ↔ (p.get? space name).isSome := by
  have hpair : (space, name) ∈ p.pairs ↔
      ∃ names, (space, names) ∈ p.byNamespace.entries ∧ name ∈ names.keys := by
    rw [pairs, List.mem_flatMap]
    constructor
    · rintro ⟨⟨s, names⟩, hentry, hmem⟩
      obtain ⟨n, hn, heq⟩ := List.mem_map.1 hmem
      cases heq
      exact ⟨names, hentry, hn⟩
    · rintro ⟨names, hentry, hname⟩
      exact ⟨(space, names), hentry, List.mem_map_of_mem hname⟩
  rw [hpair, get?]
  simp only [← TextMap.get?_eq_some_iff, TextMap.mem_keys_iff]
  cases p.byNamespace.get? space <;> simp

theorem pairs_nodup (p : Properties) : p.pairs.Nodup := by
  rw [pairs, List.nodup_flatMap]
  constructor
  · intro entry _
    exact entry.2.keys_nodup.map fun n n' h => (Prod.mk.inj h).2
  · -- Pairs of different namespaces are different.
    refine p.byNamespace.sorted.imp fun {a b} hab => ?_
    intro pair ha hb
    obtain ⟨n, -, rfl⟩ := List.mem_map.1 ha
    obtain ⟨n', -, heq⟩ := List.mem_map.1 hb
    rw [(Prod.mk.inj heq).1, before_irrefl] at hab
    cases hab

/-- The size is the number of pairs that are set. -/
theorem size_eq_length_pairs (p : Properties) : p.size = p.pairs.length := by
  rw [size, pairs]
  induction p.byNamespace.entries with
  | nil => rfl
  | cons entry rest ih =>
      rw [List.foldr_cons, ih, List.flatMap_cons, List.length_append, List.length_map,
        TextMap.keys, List.length_map]
      rfl

/-! ## Namespaces -/

/-- There is a name in each namespace. -/
def Peopled (p : Properties) : Prop :=
  ∀ space names, p.byNamespace.get? space = some names → ∃ name, (names.get? name).isSome

theorem peopled_empty : empty.Peopled := by
  intro space names h
  cases h

/-- Setting a property makes no namespace without a name, and empties none. -/
theorem Peopled.insert (h : p.Peopled) (space name value : String) :
    (p.insert space name value).Peopled := by
  intro s names hs
  rw [Properties.insert, TextMap.get?_insert] at hs
  split at hs
  · obtain rfl := Option.some.inj hs
    exact ⟨name, by rw [TextMap.get?_insert_self]; rfl⟩
  · exact h s names hs

/-- A namespace that one set has, and another set with the same answers has not, is without a
name. -/
theorem Peopled.get?_ne_none (h : p.Peopled)
    (hsame : ∀ space name, p.get? space name = q.get? space name) {space : String}
    {names : TextMap String} (hp : p.byNamespace.get? space = some names) :
    q.byNamespace.get? space ≠ none := by
  intro hq
  obtain ⟨name, hname⟩ := h space names hp
  have hvalue := hsame space name
  rw [get?, get?, hp, hq, Option.bind_some, Option.bind_none] at hvalue
  rw [hvalue] at hname
  cases hname

/-- Two sets without empty namespaces that have the same answers are the same set. -/
theorem Peopled.ext (hp : p.Peopled) (hq : q.Peopled)
    (h : ∀ space name, p.get? space name = q.get? space name) : p = q := by
  have hspaces : p.byNamespace = q.byNamespace := by
    apply TextMap.ext_get?
    intro space
    cases hs : p.byNamespace.get? space with
    | none =>
        cases hs' : q.byNamespace.get? space with
        | none => rfl
        | some names' => exact absurd hs (hq.get?_ne_none (fun s n => (h s n).symm) hs')
    | some names =>
        cases hs' : q.byNamespace.get? space with
        | none => exact absurd hs' (hp.get?_ne_none h hs)
        | some names' =>
            congr 1
            apply TextMap.ext_get?
            intro name
            have hname := h space name
            rwa [get?, get?, hs, hs', Option.bind_some, Option.bind_some] at hname
  cases p
  cases q
  exact congrArg Properties.mk hspaces

/-! ## Calls -/

/-- A call that sets a property, with an answer or without. -/
inductive Call where
  | exchange (space name value : String)
  | insert (space name value : String)
  deriving DecidableEq, Repr

namespace Call

/-- The namespace and the name of the property that is set. -/
def pair : Call → String × String
  | .exchange space name _ => (space, name)
  | .insert space name _ => (space, name)

def value : Call → String
  | .exchange _ _ value => value
  | .insert _ _ value => value

/-- The properties after a call. -/
def run (p : Properties) : Call → Properties
  | .exchange space name value => (p.exchange space name value).2
  | .insert space name value => p.insert space name value

/-- With an answer or without, a call sets the property. -/
theorem run_eq (p : Properties) (c : Call) : c.run p = p.insert c.pair.1 c.pair.2 c.value := by
  cases c with
  | exchange space name value => rw [run, exchange_eq]; rfl
  | insert space name value => rfl

end Call

/-- The properties that calls make, one after the other. -/
def ofCalls (calls : List Call) : Properties := calls.foldl Call.run empty

/-- The value of the last call for a pair, if there is one. -/
def lastValue? (calls : List Call) (space name : String) : Option String :=
  ((calls.filter fun c => c.pair = (space, name)).getLast?).map Call.value

theorem ofCalls_concat (calls : List Call) (c : Call) :
    ofCalls (calls ++ [c]) = (ofCalls calls).insert c.pair.1 c.pair.2 c.value := by
  rw [ofCalls, List.foldl_append, ← ofCalls, List.foldl_cons, List.foldl_nil, Call.run_eq]

theorem lastValue?_append (calls more : List Call) (space name : String) :
    lastValue? (calls ++ more) space name =
      (lastValue? more space name).or (lastValue? calls space name) := by
  rw [lastValue?, List.filter_append, List.getLast?_append, Option.map_or]
  rfl

theorem lastValue?_singleton (c : Call) (space name : String) :
    lastValue? [c] space name = if c.pair = (space, name) then some c.value else none := by
  by_cases h : c.pair = (space, name) <;> simp [lastValue?, h]

theorem isSome_lastValue?_iff {calls : List Call} {space name : String} :
    (lastValue? calls space name).isSome ↔ (space, name) ∈ calls.map Call.pair := by
  rw [lastValue?, Option.isSome_map, List.getLast?_isSome, List.mem_map]
  constructor
  · intro h
    obtain ⟨c, hc⟩ := List.exists_mem_of_ne_nil _ h
    rw [List.mem_filter, decide_eq_true_iff] at hc
    exact ⟨c, hc⟩
  · rintro ⟨c, hc, hpair⟩
    exact List.ne_nil_of_mem (List.mem_filter.2 ⟨hc, decide_eq_true hpair⟩)

/-- **A property has the value of the last call for it.** -/
theorem get?_ofCalls (calls : List Call) (space name : String) :
    (ofCalls calls).get? space name = lastValue? calls space name := by
  induction calls using List.reverseRecOn with
  | nil => rfl
  | append_singleton calls c ih =>
      rw [ofCalls_concat, get?_insert, ih, lastValue?_append, lastValue?_singleton]
      by_cases h : c.pair = (space, name)
      · simp [h]
      · have hne : ¬ (c.pair.1 = space ∧ c.pair.2 = name) := fun hand =>
          h (Prod.ext hand.1 hand.2)
        simp [h, hne]

theorem peopled_ofCalls (calls : List Call) : (ofCalls calls).Peopled := by
  induction calls using List.reverseRecOn with
  | nil => exact peopled_empty
  | append_singleton calls c ih =>
      rw [ofCalls_concat]
      exact ih.insert c.pair.1 c.pair.2 c.value

theorem pairs_ofCalls (calls : List Call) :
    (ofCalls calls).pairs.toFinset = (calls.map Call.pair).toFinset := by
  ext ⟨space, name⟩
  rw [List.mem_toFinset, List.mem_toFinset, mem_pairs_iff, get?_ofCalls, isSome_lastValue?_iff]

/-- There are as many properties as pairs in the calls. -/
theorem size_ofCalls (calls : List Call) :
    (ofCalls calls).size = (calls.map Call.pair).toFinset.card := by
  calc (ofCalls calls).size
      = (ofCalls calls).pairs.length := size_eq_length_pairs _
    _ = (ofCalls calls).pairs.toFinset.card :=
        (List.toFinset_card_of_nodup (pairs_nodup _)).symm
    _ = (calls.map Call.pair).toFinset.card := by rw [pairs_ofCalls]

theorem isEmpty_ofCalls_iff {calls : List Call} :
    (ofCalls calls).isEmpty = true ↔ calls = [] := by
  rw [isEmpty, beq_iff_eq, size_ofCalls, Finset.card_eq_zero, List.toFinset_eq_empty_iff,
    List.map_eq_nil_iff]

/-- Only the last values of the pairs matter. -/
theorem ofCalls_eq_of_lastValue? {calls calls' : List Call}
    (h : ∀ space name, lastValue? calls space name = lastValue? calls' space name) :
    ofCalls calls = ofCalls calls' := by
  refine (peopled_ofCalls calls).ext (peopled_ofCalls calls') fun space name => ?_
  rw [get?_ofCalls, get?_ofCalls, h]

/-- Of two calls for different pairs, the order does not matter. -/
theorem lastValue?_swap (front : List Call) {c c' : Call} (back : List Call)
    (h : c.pair ≠ c'.pair) (space name : String) :
    lastValue? (front ++ [c, c'] ++ back) space name =
      lastValue? (front ++ [c', c] ++ back) space name := by
  have hpairs : ∀ d d' : Call, lastValue? [d, d'] space name =
      (lastValue? [d'] space name).or (lastValue? [d] space name) := fun d d' =>
    lastValue?_append [d] [d'] space name
  have hswap : lastValue? [c, c'] space name = lastValue? [c', c] space name := by
    rw [hpairs, hpairs, lastValue?_singleton, lastValue?_singleton]
    by_cases hc : c.pair = (space, name)
    · have hc' : c'.pair ≠ (space, name) := fun heq => h (hc.trans heq.symm)
      simp [hc, hc']
    · simp [hc]
  simp only [lastValue?_append, hswap]

/-! ## Slashes in namespaces and names -/

theorem ne_append_slash (a b : String) : a ≠ a ++ "/" ++ b := by
  intro h
  have hlength := congrArg String.length h
  have hslash : "/".length = 1 := rfl
  rw [String.length_append, String.length_append, hslash] at hlength
  omega

/-- A call for one pair does not touch another. -/
theorem get?_ofCalls_concat_of_ne (calls : List Call) {c : Call} {space name : String}
    (h : c.pair ≠ (space, name)) :
    (ofCalls (calls ++ [c])).get? space name = (ofCalls calls).get? space name := by
  rw [get?_ofCalls, get?_ofCalls, lastValue?_append, lastValue?_singleton, if_neg h,
    Option.none_or]

/-! ## All calls -/

/-- What a set of properties is after calls. -/
structure IsFiniteMap (calls : List Call) : Prop where
  /-- A property has the value of the last call for it, and none if there was no call for it. -/
  values : ∀ space name, (ofCalls calls).get? space name = lastValue? calls space name
  unset : ∀ space name, (ofCalls calls).get? space name = none ↔
    (space, name) ∉ calls.map Call.pair
  /-- A further call with an answer is answered with the value that the property has had before. -/
  answers : ∀ space name value, ((ofCalls calls).exchange space name value).1 =
    (ofCalls calls).get? space name
  /-- There are as many properties as different pairs in the calls. -/
  size : (ofCalls calls).size = (calls.map Call.pair).toFinset.card
  isEmpty : (ofCalls calls).isEmpty = true ↔ calls.map Call.pair = []
  /-- The namespaces are kept in the order of their bytes, each of them once, -/
  namespaces : ((ofCalls calls).byNamespace.keys.map utf8).Pairwise (· < ·) ∧
    (ofCalls calls).byNamespace.keys.Nodup
  /-- and so are the names in each of them. -/
  names : ∀ space names, (ofCalls calls).byNamespace.get? space = some names →
    (names.keys.map utf8).Pairwise (· < ·) ∧ names.keys.Nodup
  /-- Calls that leave the same last values make the same set, which is written as the same text. -/
  decided : ∀ calls', (∀ space name, lastValue? calls space name = lastValue? calls' space name) →
    ofCalls calls = ofCalls calls' ∧
      Json.ofProperties (ofCalls calls) = Json.ofProperties (ofCalls calls')
  /-- Calls for different pairs can be exchanged. -/
  commute : ∀ front c c' back, calls = front ++ [c, c'] ++ back → c.pair ≠ c'.pair →
    ofCalls calls = ofCalls (front ++ [c', c] ++ back)
  /-- A slash does not move between a namespace and a name: the properties `b/c` of `a` and `c` of
  `a/b` are set apart from each other. -/
  slashes : ∀ (a b c : String) (call : Call),
    (call.pair = (a, b ++ "/" ++ c) → (ofCalls (calls ++ [call])).get? (a ++ "/" ++ b) c =
      (ofCalls calls).get? (a ++ "/" ++ b) c) ∧
    (call.pair = (a ++ "/" ++ b, c) → (ofCalls (calls ++ [call])).get? a (b ++ "/" ++ c) =
      (ofCalls calls).get? a (b ++ "/" ++ c))

/-- **Properties are a finite map from pairs of a namespace and a name.** Whatever calls have been
made, a property has the value of the last call for it, a call is answered with the value before it,
and the number of properties is that of the pairs. The set, and its text, depend on the last values
alone, so calls for different pairs can be exchanged; and a pair is told by both of its parts. -/
theorem properties_are_finite_map (calls : List Call) : IsFiniteMap calls where
  values := get?_ofCalls calls
  unset space name := by
    rw [get?_ofCalls, ← isSome_lastValue?_iff, Option.not_isSome_iff_eq_none]
  answers space name value := by rw [exchange_eq]
  size := size_ofCalls calls
  isEmpty := by rw [isEmpty_ofCalls_iff, List.map_eq_nil_iff]
  namespaces := ⟨TextMap.keys_increasing _, TextMap.keys_nodup _⟩
  names _ names _ := ⟨names.keys_increasing, names.keys_nodup⟩
  decided calls' h := by
    have hsame := ofCalls_eq_of_lastValue? h
    exact ⟨hsame, by rw [hsame]⟩
  commute front c c' back hcalls h := by
    rw [hcalls]
    exact ofCalls_eq_of_lastValue? (lastValue?_swap front back h)
  slashes a b c call := by
    have hne : a ≠ a ++ "/" ++ b := ne_append_slash a b
    constructor
    · intro hcall
      refine get?_ofCalls_concat_of_ne calls fun heq => ?_
      exact hne (Prod.mk.inj (hcall.symm.trans heq)).1
    · intro hcall
      refine get?_ofCalls_concat_of_ne calls fun heq => ?_
      exact hne (Prod.mk.inj (heq.symm.trans hcall)).1

end Properties

end MessageArchive
