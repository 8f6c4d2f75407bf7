import MessageArchive.TextMap

set_option autoImplicit false

/-! # Message properties

The dynamic properties of a message, addressed by a namespace and a name. The two are kept
apart, so the property `c` of `a/b` and the property `b/c` of `a` are different properties.
-/

namespace MessageArchive

/-- The properties of a message: for each namespace the values of its names. -/
structure Properties where
  byNamespace : TextMap (TextMap String) := .empty
  deriving DecidableEq, Repr

namespace Properties

/-- No property is set, and there is no namespace. -/
def empty : Properties := {}

/-- The values of the names of a namespace. -/
def names (p : Properties) (space : String) : TextMap String :=
  (p.byNamespace.get? space).getD .empty

/-- The value of a property, if it is set. -/
def get? (p : Properties) (space name : String) : Option String :=
  (p.byNamespace.get? space).bind fun names => names.get? name

/-- The properties with one of them set. -/
def insert (p : Properties) (space name value : String) : Properties :=
  ⟨p.byNamespace.insert space ((p.names space).insert name value)⟩

/-- Sets a property. The first component is the value that it had, if it was set. -/
def exchange (p : Properties) (space name value : String) : Option String × Properties :=
  let (old, names) := (p.names space).exchange name value
  (old, ⟨p.byNamespace.insert space names⟩)

/-- The number of properties that are set. -/
def size (p : Properties) : Nat :=
  p.byNamespace.entries.foldr (fun entry count => entry.2.size + count) 0

def isEmpty (p : Properties) : Bool := p.size == 0

theorem get?_names (p : Properties) (space name : String) :
    (p.names space).get? name = p.get? space name := by
  simp only [names, get?]
  cases p.byNamespace.get? space <;> rfl

theorem exchange_eq (p : Properties) (space name value : String) :
    p.exchange space name value = (p.get? space name, p.insert space name value) := by
  simp only [exchange, insert, TextMap.exchange_eq, get?_names]

theorem get?_insert (p : Properties) (space name value s n : String) :
    (p.insert space name value).get? s n =
      if space = s ∧ name = n then some value else p.get? s n := by
  rw [get?, insert, TextMap.get?_insert]
  by_cases hs : space = s
  · subst hs
    simp only [if_true, Option.bind_some, TextMap.get?_insert, get?_names, true_and]
  · simp only [hs, if_false, false_and]
    rfl

end Properties

end MessageArchive
