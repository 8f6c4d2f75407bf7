import MessageArchive.Audit
import Mathlib.Data.List.Forall2

set_option autoImplicit false

/-! # Recorded work, part by part

How recorded work ends in terms of its parts, and a relation between two pieces of work: they leave
related events behind and end alike, both with the same failure or both with related values. The
relation is kept when further work follows (`Alike.bind`), so two runs of one program are compared
step by step.
-/

namespace MessageArchive.Audit.Traced

variable {α β γ δ : Type}

/-- Work that goes on ends well when both of its parts do. -/
theorem result_bind_eq_ok_iff {x : Traced α} {f : α → Traced β} {b : β} :
    (x >>= f).result = .ok b ↔ ∃ a, x.result = .ok a ∧ (f a).result = .ok b := by
  cases h : x.result with
  | error e => simp [bind_of_error f h]
  | ok a => simp [bind_of_ok f h]

/-- Work that goes on fails when its first part does, or else when its second part does. -/
theorem result_bind_eq_error_iff {x : Traced α} {f : α → Traced β} {e : ArchiveError} :
    (x >>= f).result = .error e ↔
      x.result = .error e ∨ ∃ a, x.result = .ok a ∧ (f a).result = .error e := by
  cases h : x.result with
  | error e' => simp [bind_of_error f h]
  | ok a => simp [bind_of_ok f h]

/-- Recording an event does not change how the work after it ends. -/
@[simp] theorem result_record_bind (e : Event) (f : Unit → Traced β) :
    (record e >>= f).result = (f ()).result := by
  rw [bind_of_ok f (result_record e)]

/-- A value that is only changed in the end leaves nothing more behind. -/
theorem trail_bind_pure (x : Traced α) (g : α → β) :
    (x >>= fun a => pure (g a)).trail = x.trail := by
  cases h : x.result with
  | error e => rw [bind_of_error _ h]
  | ok a =>
      rw [bind_of_ok _ h]
      dsimp only
      rw [trail_pure, List.append_nil]

/-- Two pieces of work, one after the other: the second leaves something behind if the first ends
well. -/
theorem entries_andThen (id : String) (x : Traced α) (y : Traced β) (g : α → β → γ) :
    entries id (x >>= fun a => y >>= fun b => pure (g a b)).trail =
      entries id x.trail ++ if x.result.isOk then entries id y.trail else [] := by
  cases h : x.result with
  | error e =>
      rw [bind_of_error _ h]
      exact (List.append_nil _).symm
  | ok a =>
      rw [bind_of_ok _ h, trail_bind_pure, entries, List.map_append]
      rfl

theorem isOk_andThen (x : Traced α) (y : Traced β) (g : α → β → γ) :
    (x >>= fun a => y >>= fun b => pure (g a b)).result.isOk =
      (x.result.isOk && y.result.isOk) := by
  cases h : x.result with
  | error e =>
      rw [bind_of_error _ h]
      rfl
  | ok a =>
      rw [bind_of_ok _ h]
      cases h' : y.result with
      | error e =>
          rw [bind_of_error _ h']
          rfl
      | ok b =>
          rw [bind_of_ok _ h']
          rfl

/-! ## Work that is alike -/

/-- Both fail in the same way, or both give a value and the values are related. -/
def SameEnd (R : α → β → Prop) : Except ArchiveError α → Except ArchiveError β → Prop
  | .ok a, .ok b => R a b
  | .error e, .error e' => e = e'
  | _, _ => False

theorem sameEnd_cases {R : α → β → Prop} {x : Except ArchiveError α} {y : Except ArchiveError β}
    (h : SameEnd R x y) :
    (∃ e, x = .error e ∧ y = .error e) ∨ ∃ a b, x = .ok a ∧ y = .ok b ∧ R a b := by
  cases x with
  | error e =>
      cases y with
      | error e' =>
          obtain rfl : e = e' := h
          exact Or.inl ⟨e, rfl, rfl⟩
      | ok b => exact h.elim
  | ok a =>
      cases y with
      | error e' => exact h.elim
      | ok b => exact Or.inr ⟨a, b, rfl, rfl, h⟩

/-- Two pieces of work whose events are related by `E` one by one, and that end alike. -/
structure Alike (E : Event → Event → Prop) (R : α → β → Prop) (x : Traced α) (y : Traced β) :
    Prop where
  trail : List.Forall₂ E x.trail y.trail
  result : SameEnd R x.result y.result

namespace Alike

variable {E : Event → Event → Prop} {R : α → β → Prop} {S : γ → δ → Prop}

protected theorem pure {a : α} {b : β} (h : R a b) : Alike E R (pure a) (pure b) :=
  ⟨.nil, h⟩

protected theorem fail (e : ArchiveError) : Alike E R (fail e) (fail e) :=
  ⟨.nil, rfl⟩

protected theorem record {e e' : Event} (h : E e e') :
    Alike E (fun _ _ => True) (Traced.record e) (Traced.record e') :=
  ⟨.cons h .nil, trivial⟩

/-- Work that goes on alike after work that was alike is alike. -/
protected theorem bind {x : Traced α} {y : Traced β} {f : α → Traced γ} {g : β → Traced δ}
    (h : Alike E R x y) (hfg : ∀ a b, R a b → Alike E S (f a) (g b)) :
    Alike E S (x >>= f) (y >>= g) := by
  rcases sameEnd_cases h.result with ⟨e, hx, hy⟩ | ⟨a, b, hx, hy, hab⟩
  · rw [bind_of_error f hx, bind_of_error g hy]
    exact ⟨h.trail, rfl⟩
  · have hnext := hfg a b hab
    rw [bind_of_ok f hx, bind_of_ok g hy]
    exact ⟨List.rel_append h.trail hnext.trail, hnext.result⟩

/-- Work is alike itself when each event is related to itself. -/
protected theorem refl (hE : ∀ e, E e e) (x : Traced α) : Alike E Eq x x := by
  refine ⟨List.forall₂_same.mpr fun e _ => hE e, ?_⟩
  cases x.result with
  | error e => rfl
  | ok a => rfl

theorem mono {R' : α → β → Prop} {x : Traced α} {y : Traced β} (h : Alike E R x y)
    (hR : ∀ a b, R a b → R' a b) : Alike E R' x y := by
  refine ⟨h.trail, ?_⟩
  rcases sameEnd_cases h.result with ⟨e, hx, hy⟩ | ⟨a, b, hx, hy, hab⟩
  · rw [hx, hy]
    rfl
  · rw [hx, hy]
    exact hR a b hab

end Alike

end MessageArchive.Audit.Traced
