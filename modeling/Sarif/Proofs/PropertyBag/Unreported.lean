import Sarif.Proofs.Hash.Consistency
import Sarif.Proofs.PropertyBag.Tags

/-!
# Tag calls that report nothing

A call on the tags of a bag that returns false has met the tags as it wants them, so it puts back
what it has found and the bag is as it was. There is one exception, since removing a tag also
tidies up: an array of tags that was empty from the start is dropped, whatever the tag is,
although no tag was there to be removed (`PropertyBag.call_unreported`).
-/

namespace Sarif

/-- A call removes a tag from tags that are an empty array. -/
def TagCall.MeetsEmpty (bag : PropertyBag) : TagCall → Prop
  | add _ => False
  | remove _ => bag.get? PropertyBag.tagsKey = some (.array [])

namespace PropertyBag

variable {bag : PropertyBag}

/-- A well-formed bag has distinct keys and holds well-formed values. -/
def Regular (bag : PropertyBag) : Prop :=
  Flat.Each Scalar.WellFormed List.Nodup (.map .json) bag

/-- A bag is what it was, and cannot be told from that: it holds the same values under the same
keys in the same order, compares equal, and has the same hash and the same text. -/
structure Unchanged (before after : PropertyBag) : Prop where
  entries : after.entries = before.entries
  same : before.same after = true
  hash : after.hash = before.hash
  text : after.document.render = before.document.render

/-- A well-formed bag cannot be told from itself. -/
theorem Regular.unchanged (regular : bag.Regular) : Unchanged bag bag := by
  have comparable :
      (FieldValue.required (.flat (f := .map .json) bag)).Each Scalar.Comparable List.Nodup :=
    ⟨regular.1, fun entry inside => ⟨regular.2 entry inside, trivial⟩⟩
  exact ⟨rfl, FieldValue.same_self _ comparable, rfl, rfl⟩

/-! ## Putting back what was found -/

/-- Putting the tags back as they were found changes nothing. -/
theorem insert_tagItems {items : List Json} (held : bag.get? tagsKey = some (.array items)) :
    bag.insert tagsKey (.array items) = bag :=
  congrArg Dict.mk (Dict.put_of_lookup held)

/-- Adding a tag that is there changes nothing. -/
theorem addTag_of_mem {tag : String} (there : tag ∈ bag.tags) : (bag.addTag tag).2 = bag := by
  rcases bag.array_or_other with ⟨items, held⟩ | other
  · rw [addTag_eq, if_pos there, tagItems_of_array held]
    exact insert_tagItems held
  · rw [tags_eq, tagItems_of_other other] at there
    cases there

/-- Removing a tag that is not there drops the tags if they are an empty array, and changes nothing
otherwise. -/
theorem removeTag_of_notMem {tag : String} (missing : tag ∉ bag.tags) :
    (bag.get? tagsKey = some (.array []) → (bag.removeTag tag).2 = bag.erase tagsKey) ∧
      (bag.get? tagsKey ≠ some (.array []) → (bag.removeTag tag).2 = bag) := by
  rcases bag.array_or_other with ⟨items, held⟩ | other
  · have kept : items.filter (fun item => !isTag tag item) = items := by
      have none : ¬ items.any (isTag tag) = true := by
        rwa [any_isTag_iff, ← tagItems_of_array held, ← tags_eq]
      refine List.filter_eq_self.mpr fun item inside => ?_
      by_contra found
      exact none (List.any_eq_true.mpr ⟨item, inside, by simpa using found⟩)
    rw [removeTag_of_array held, kept, held]
    constructor
    · intro empty
      obtain rfl := Json.array.inj (Option.some.inj empty)
      rfl
    · intro full
      have filled : ¬ items.isEmpty = true := fun empty => by
        rw [List.isEmpty_iff.mp empty] at full
        exact full rfl
      dsimp only
      rw [if_neg filled]
      exact insert_tagItems held
  · rw [removeTag_of_other other]
    exact ⟨fun empty => absurd empty (other []), fun _ => rfl⟩

/-! ## What a call that returns false does -/

/-- A call that returns false leaves the bag as it was, unless it removes a tag from an empty
array. -/
theorem call_of_unreported {tagCall : TagCall} (unreported : (bag.call tagCall).1 = false) :
    (tagCall.MeetsEmpty bag → (bag.call tagCall).2 = bag.erase tagsKey) ∧
      (¬ tagCall.MeetsEmpty bag → (bag.call tagCall).2 = bag) := by
  have unasked : ¬ tagCall.onSet bag.tags ≠ bag.tags := by
    rw [← call_iff, unreported]
    exact Bool.false_ne_true
  cases tagCall with
  | add tag =>
      have there : tag ∈ bag.tags := by
        by_contra missing
        simp [TagCall.onSet, missing] at unasked
      exact ⟨False.elim, fun _ => addTag_of_mem there⟩
  | remove tag =>
      have missing : tag ∉ bag.tags := by
        intro there
        have filtered := List.filter_eq_self.mp (not_not.mp unasked) tag there
        simp at filtered
      exact removeTag_of_notMem missing

/-- After a call that returns false the bag is exactly what it was, unless the call removes a tag
from tags that are an empty array. Then these are dropped, and everything beside them is as it
was. -/
theorem call_unreported (bag : PropertyBag) (regular : bag.Regular) (tagCall : TagCall)
    (unreported : (bag.call tagCall).1 = false) :
    (Unchanged bag (bag.call tagCall).2 ↔ ¬ tagCall.MeetsEmpty bag) ∧
      (tagCall.MeetsEmpty bag → (bag.call tagCall).2.get? tagsKey = none ∧
        otherEntries (bag.call tagCall).2 = bag.otherEntries) := by
  obtain ⟨dropped, unchanged⟩ := call_of_unreported unreported
  have missing (empty : tagCall.MeetsEmpty bag) : (bag.call tagCall).2.get? tagsKey = none := by
    rw [dropped empty]
    exact get?_erase regular.1
  refine ⟨⟨fun same empty => ?_, fun other => ?_⟩, fun empty => ⟨missing empty, ?_⟩⟩
  · have before : bag.get? tagsKey = some (.array []) := by
      cases tagCall with
      | add tag => exact empty.elim
      | remove tag => exact empty
    have after := missing empty
    rw [Dict.get?, same.entries] at after
    exact Option.some_ne_none _ (before.symm.trans after)
  · rw [unchanged other]
    exact regular.unchanged
  · exact (call_keeps regular.1 tagCall).2

/-- Removing another tag from the bag with a number among its tags returns false and leaves it
alone. -/
theorem call_unreported_mixedTags :
    (mixedTags.call (.remove "new")).1 = false ∧
      Unchanged mixedTags (mixedTags.call (.remove "new")).2 := by
  have regular : mixedTags.Regular := by
    have number : (Number.integer 1).WellFormed := ⟨by decide, by decide⟩
    refine ⟨by decide, ?_⟩
    simp [mixedTags, Scalar.WellFormed, Json.WellFormed, Json.WellFormedItems, number]
  have unreported : (mixedTags.call (.remove "new")).1 = false := by decide
  refine ⟨unreported, (call_unreported mixedTags regular (.remove "new") unreported).1.mpr ?_⟩
  intro empty
  cases Json.array.inj (Option.some.inj empty)

/-- A bag with an empty array as its tags. -/
def emptyTags : PropertyBag :=
  ⟨[("tags", .array [])]⟩

/-- Not every call that returns false leaves the bag as it was: removing a tag from an empty array
drops the array. -/
theorem call_unreported_emptyTags :
    ¬ ∀ (bag : PropertyBag) (tagCall : TagCall), bag.Regular → (bag.call tagCall).1 = false →
      Unchanged bag (bag.call tagCall).2 := by
  intro always
  have regular : emptyTags.Regular := by
    exact ⟨by decide, List.forall_mem_singleton.mpr trivial⟩
  have same := always emptyTags (.remove "new") regular (by decide)
  cases same.entries

end PropertyBag
end Sarif
