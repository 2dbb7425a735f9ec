import Sarif.NodeList

/-!
# Searching lists with empty slots

A search through what the slots of a list hold passes over empty slots, so it finds the item of the
first slot whose item is accepted.
-/

namespace Sarif

/-- The first image that a test accepts is that of the first item whose image it accepts. -/
theorem find?_filterMap_eq_some_iff {α β : Type} {image : α → Option β} {test : β → Bool}
    {xs : List α} {y : β} :
    (xs.filterMap image).find? test = some y ↔ test y = true ∧
      ∃ before x after, xs = before ++ x :: after ∧ image x = some y ∧
        ∀ earlier ∈ before, ∀ z, image earlier = some z → test z = false := by
  rw [List.find?_filterMap, Option.bind_eq_some_iff]
  constructor
  · rintro ⟨x, found, held⟩
    obtain ⟨accepted, before, after, eq, refused⟩ := List.find?_eq_some_iff_append.mp found
    refine ⟨by simpa [held] using accepted, before, x, after, eq, held,
      fun earlier among z own => ?_⟩
    simpa [own] using refused earlier among
  · rintro ⟨accepted, before, x, after, eq, held, refused⟩
    refine ⟨x, List.find?_eq_some_iff_append.mpr ⟨by simpa [held] using accepted, before, after, eq,
      fun earlier among => ?_⟩, held⟩
    cases own : image earlier with
    | none => rfl
    | some z => simpa [own] using refused earlier among z own

namespace NodeList

variable {α : Type} {list : NodeList α} {test : α → Bool} {x : α}

/-- An index leads to an item exactly if the slot there holds it. -/
theorem at?_eq_some_iff {i : Nat} : at? list i = some x ↔ list[i]? = some (some x) :=
  Option.join_eq_some_iff

/-- An item is one of those that slots hold exactly if a slot holds it. -/
theorem mem_populated : x ∈ populated list ↔ some x ∈ list := by
  simp [populated]

/-- The first item that a test accepts is in the first slot whose item it accepts. -/
theorem find?_populated_eq_some_iff :
    (populated list).find? test = some x ↔ test x = true ∧
      ∃ before after, list = before ++ some x :: after ∧ ∀ y, some y ∈ before → test y = false := by
  rw [populated, find?_filterMap_eq_some_iff]
  refine and_congr_right fun _ => exists_congr fun before => ?_
  constructor
  · rintro ⟨_, after, eq, rfl, refused⟩
    exact ⟨after, eq, fun y among => refused _ among y rfl⟩
  · rintro ⟨after, eq, refused⟩
    exact ⟨_, after, eq, rfl, fun _ among z own => refused z (own ▸ among)⟩

end NodeList
end Sarif
