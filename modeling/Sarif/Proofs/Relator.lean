import Mathlib.Data.List.Forall2
import Sarif.NodeList

/-!
# Related options and lists

A relation between items lifts to options and, item by item, to lists. What is looked up in related
lists is related again, as long as the tests agree on related items; an index that is found is the
same.
-/

namespace Sarif

/-! ## Options -/

section Options

variable {α β γ : Type} {r : α → α → Prop} {s : β → β → Prop} {x y : Option α}

/-- Related options lead to related ones by functions that take related items, the first of which is
what the first option holds, to related options. -/
theorem rel_bind_of_mem {f g : α → Option β} (related : Option.Rel r x y)
    (each : ∀ a ∈ x, ∀ b, r a b → Option.Rel s (f a) (g b)) :
    Option.Rel s (x.bind f) (y.bind g) := by
  cases related with
  | none => exact .none
  | some holds => exact each _ rfl _ holds

/-- Related options lead to related ones by functions that take related items to related options. -/
theorem rel_bind {f g : α → Option β} (related : Option.Rel r x y)
    (each : ∀ a b, r a b → Option.Rel s (f a) (g b)) : Option.Rel s (x.bind f) (y.bind g) :=
  rel_bind_of_mem related fun a _ => each a

/-- Related options lead to the same by functions that take related items to the same. -/
theorem bind_eq_of_rel {f g : α → Option β} (related : Option.Rel r x y)
    (each : ∀ a b, r a b → f a = g b) : x.bind f = y.bind g := by
  cases related with
  | none => rfl
  | some holds => exact each _ _ holds

/-- Related options both hold an item that is accepted by tests that agree, or neither does. -/
theorem any_eq_of_rel {p q : α → Bool} (related : Option.Rel r x y)
    (agree : ∀ a b, r a b → p a = q b) : x.any p = y.any q := by
  cases related with
  | none => rfl
  | some holds => exact agree _ _ holds

/-- An option leads to related ones by functions that agree up to the relation. -/
theorem rel_bind_same {x : Option γ} {f g : γ → Option β} (each : ∀ c, Option.Rel s (f c) (g c)) :
    Option.Rel s (x.bind f) (x.bind g) := by
  cases x with
  | none => exact .none
  | some c => exact each c

/-- The first of two options that holds something is related to that of two related ones. -/
theorem rel_or {x' y' : Option α} (first : Option.Rel r x y) (second : Option.Rel r x' y') :
    Option.Rel r (x.or x') (y.or y') := by
  cases first with
  | none => exact second
  | some holds => exact .some holds

end Options

/-! ## Lists -/

section Lists

variable {α β : Type} {r : α → α → Prop} {s : β → β → Prop} {xs ys : List α}

/-- Searches through related lists find related items. -/
theorem rel_find? {p q : α → Bool} (related : List.Forall₂ r xs ys)
    (agree : ∀ a b, r a b → p a = q b) : Option.Rel r (xs.find? p) (ys.find? q) := by
  induction related with
  | nil => exact .none
  | cons holds _ inductionHypothesis =>
      rw [List.find?_cons, List.find?_cons, agree _ _ holds]
      split
      · exact .some holds
      · exact inductionHypothesis

/-- The first image in a list is that of its head, if it has one. -/
theorem findSome?_cons_eq_or {f : α → Option β} {x : α} :
    (x :: xs).findSome? f = (f x).or (xs.findSome? f) := by
  rw [List.findSome?_cons]
  cases f x <;> rfl

/-- The first images in related lists are related. -/
theorem rel_findSome? {f g : α → Option β} (related : List.Forall₂ r xs ys)
    (each : ∀ a b, r a b → Option.Rel s (f a) (g b)) :
    Option.Rel s (xs.findSome? f) (ys.findSome? g) := by
  induction related with
  | nil => exact .none
  | cons holds _ inductionHypothesis =>
      rw [findSome?_cons_eq_or, findSome?_cons_eq_or]
      exact rel_or (each _ _ holds) inductionHypothesis

end Lists

/-! ## Lists with empty slots -/

namespace NodeList

variable {α : Type} {r : α → α → Prop} {xs ys : NodeList α}

/-- Slots of related lists at one index hold related items. -/
theorem rel_at? (related : List.Forall₂ (Option.Rel r) xs ys) (i : Nat) :
    Option.Rel r (at? xs i) (at? ys i) := by
  induction related generalizing i with
  | nil => exact .none
  | cons slots _ inductionHypothesis =>
      cases i with
      | zero => exact slots
      | succ i => exact inductionHypothesis i

/-- The items of related lists are related. -/
theorem rel_populated (related : List.Forall₂ (Option.Rel r) xs ys) :
    List.Forall₂ r (populated xs) (populated ys) :=
  List.rel_filterMap (fun _ _ slots => slots) related

/-- Related lists that may be absent are related, an absent one being empty. -/
theorem rel_getD {x y : Option (NodeList α)}
    (related : Option.Rel (List.Forall₂ (Option.Rel r)) x y) :
    List.Forall₂ (Option.Rel r) (x.getD []) (y.getD []) := by
  cases related with
  | none => exact .nil
  | some slots => exact slots

/-- Searches through related lists find the same index. -/
theorem position?_eq_of_rel {p q : α → Bool} (related : List.Forall₂ (Option.Rel r) xs ys)
    (agree : ∀ a b, r a b → p a = q b) : position? xs p = position? ys q := by
  induction related with
  | nil => rfl
  | cons slots _ inductionHypothesis =>
      rw [position?, List.findIdx?_cons, any_eq_of_rel slots agree, position?, List.findIdx?_cons]
      split
      · rfl
      · exact congrArg (Option.map (· + 1)) inductionHypothesis

end NodeList
end Sarif
