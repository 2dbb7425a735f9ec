import Sarif.Proofs.Dict
import Sarif.PropertyBag

/-!
# Tags as an ordered set

The tags of a property bag are the strings in one of its values, which may be missing, of another
type, or hold other items beside strings. Adding and removing tags makes of them an ordered set:
the tags are those of a list that goes through the same calls by itself
(`PropertyBag.tags_afterCalls`), and every call says whether this list has changed. What else is
in the array and in the bag stays.
-/

namespace Sarif

/-- A call that changes the tags of a bag. -/
inductive TagCall where
  | add (tag : String)
  | remove (tag : String)
  deriving DecidableEq, Repr

namespace TagCall

/-- What a call makes of an ordered set of tags: adding appends a tag that is missing, removing
takes it out. -/
def onSet : TagCall → List String → List String
  | add tag, set => if tag ∈ set then set else set ++ [tag]
  | remove tag, set => set.filter (· ≠ tag)

/-- An ordered set after a run of calls. -/
def setAfter (calls : List TagCall) (set : List String) : List String :=
  calls.foldl (fun set call => call.onSet set) set

/-- A call keeps an ordered set free of repetitions. -/
theorem nodup_onSet (call : TagCall) {set : List String} (distinct : set.Nodup) :
    (call.onSet set).Nodup := by
  cases call with
  | add tag =>
      rw [onSet]
      split
      · exact distinct
      · next missing =>
          refine List.nodup_append.mpr ⟨distinct, List.nodup_singleton tag, ?_⟩
          rintro other among _ last rfl
          exact missing (List.mem_singleton.mp last ▸ among)
  | remove tag => exact distinct.filter _

end TagCall

namespace PropertyBag

/-- A call on a bag: what it says, and the bag afterwards. -/
def call (bag : PropertyBag) : TagCall → Bool × PropertyBag
  | .add tag => bag.addTag tag
  | .remove tag => bag.removeTag tag

/-- A bag after a run of calls. -/
def afterCalls (bag : PropertyBag) (calls : List TagCall) : PropertyBag :=
  calls.foldl (fun bag tagCall => (bag.call tagCall).2) bag

/-! ## The items of the tags -/

variable {bag : PropertyBag}

/-- The tags are the strings among the items. -/
theorem tags_eq (bag : PropertyBag) : bag.tags = bag.tagItems.filterMap Json.string? := by
  unfold tags tagItems
  split <;> rfl

/-- A bag has a tag exactly if it is one of its tags. -/
theorem hasTag_iff (bag : PropertyBag) (tag : String) : bag.hasTag tag = true ↔ tag ∈ bag.tags := by
  rw [hasTag, List.contains_iff_mem]

/-- The items of tags that were put into a bag are those. -/
theorem tagItems_insert (bag : PropertyBag) (items : List Json) :
    tagItems (bag.insert tagsKey (.array items)) = items := by
  have found : Dict.get? (bag.insert tagsKey (.array items)) tagsKey = some (.array items) :=
    Dict.lookup_put bag.entries
  rw [tagItems, found]

/-- An item is a tag exactly if it is the string. -/
theorem isTag_iff {tag : String} {item : Json} : isTag tag item = true ↔ item.string? = some tag :=
  beq_iff_eq

/-- A tag stands among the items exactly if it is one of the tags. -/
theorem any_isTag_iff {tag : String} {items : List Json} :
    items.any (isTag tag) = true ↔ tag ∈ items.filterMap Json.string? := by
  simp only [List.any_eq_true, List.mem_filterMap, isTag_iff]

/-- The strings that are left among the items without a tag. -/
theorem filterMap_filter_isTag (tag : String) (items : List Json) :
    (items.filter fun item => !isTag tag item).filterMap Json.string? =
      (items.filterMap Json.string?).filter (· ≠ tag) := by
  rw [List.filterMap_filter, List.filter_filterMap]
  refine congrArg (List.filterMap · items) (funext fun item => ?_)
  rw [isTag]
  cases item.string? with
  | none => simp
  | some other => by_cases same : other = tag <;> simp [same, Option.filter]

/-! ## One call -/

/-- What is in a bag beside the tags. -/
def otherEntries (bag : PropertyBag) : List (String × Json) :=
  bag.entries.filter fun entry => entry.1 ≠ tagsKey

/-- The items of the tags that are not strings. -/
def otherItems (bag : PropertyBag) : List Json :=
  bag.tagItems.filter fun item => item.string?.isNone

/-- Adding a tag appends it to the items, unless it is there. -/
theorem addTag_eq (bag : PropertyBag) (tag : String) :
    bag.addTag tag = (decide (tag ∉ bag.tags), bag.insert tagsKey (.array
      (if tag ∈ bag.tags then bag.tagItems else bag.tagItems ++ [.string tag]))) := by
  rw [addTag, tags_eq]
  by_cases there : tag ∈ bag.tagItems.filterMap Json.string?
  · simp [any_isTag_iff.mpr there, there]
  · simp [mt any_isTag_iff.mp there, there]

/-- Removing a tag from an array takes it out, and drops an array of which nothing is left. -/
theorem removeTag_of_array {items : List Json} (held : bag.get? tagsKey = some (.array items))
    (tag : String) :
    bag.removeTag tag = (decide (tag ∈ bag.tags),
      if (items.filter fun item => !isTag tag item).isEmpty then bag.erase tagsKey
      else bag.insert tagsKey (.array (items.filter fun item => !isTag tag item))) := by
  have there : tag ∈ bag.tags ↔ items.any (isTag tag) = true := by
    rw [tags, held, any_isTag_iff]
  have removed : ((items.filter fun item => !isTag tag item).length != items.length) =
      decide (tag ∈ bag.tags) := by
    rw [Bool.eq_iff_iff, bne_iff_ne, decide_eq_true_iff, there, Ne,
      List.length_filter_eq_length_iff]
    simp
  rw [removeTag, held]
  exact Prod.ext removed rfl

/-- Removing a tag from what is not an array does nothing. -/
theorem removeTag_of_other (other : ∀ items, bag.get? tagsKey ≠ some (.array items))
    (tag : String) :
    bag.removeTag tag = (false, bag) := by
  unfold removeTag
  split
  · next items held => exact absurd held (other items)
  · rfl

/-- What is not an array has no items. -/
theorem tagItems_of_other (other : ∀ items, bag.get? tagsKey ≠ some (.array items)) :
    bag.tagItems = [] := by
  unfold tagItems
  split
  · next items held => exact absurd held (other items)
  · rfl

/-- The items of an array are its items. -/
theorem tagItems_of_array {items : List Json} (held : bag.get? tagsKey = some (.array items)) :
    bag.tagItems = items := by
  rw [tagItems, held]

/-- The tags of a bag are an array or not. -/
theorem array_or_other (bag : PropertyBag) :
    (∃ items, bag.get? tagsKey = some (.array items)) ∨
      ∀ items, bag.get? tagsKey ≠ some (.array items) := by
  by_cases held : ∃ items, bag.get? tagsKey = some (.array items)
  · exact .inl held
  · exact .inr fun items here => held ⟨items, here⟩

/-- Nothing is left under a key that was erased. -/
theorem get?_erase (wellFormed : bag.WellFormed) : Dict.get? (bag.erase tagsKey) tagsKey = none :=
  Dict.lookup_drop wellFormed

/-- The items after a tag was removed are the others. -/
theorem tagItems_removeTag (wellFormed : bag.WellFormed) (tag : String) :
    (bag.removeTag tag).2.tagItems = bag.tagItems.filter fun item => !isTag tag item := by
  rcases bag.array_or_other with ⟨items, held⟩ | other
  · rw [removeTag_of_array held, tagItems_of_array held]
    dsimp only
    split
    · next empty =>
      rw [List.isEmpty_iff.mp empty]
      refine tagItems_of_other fun items found => ?_
      rw [get?_erase wellFormed] at found
      cases found
    · exact tagItems_insert bag _
  · rw [removeTag_of_other other, tagItems_of_other other]
    rfl

/-- After a tag was removed the tags are not an empty array. -/
theorem removeTag_ne_empty (wellFormed : bag.WellFormed) (tag : String) :
    (bag.removeTag tag).2.get? tagsKey ≠ some (.array []) := by
  rcases bag.array_or_other with ⟨items, held⟩ | other
  · rw [removeTag_of_array held]
    dsimp only
    split
    · rw [get?_erase wellFormed]
      exact nofun
    · next full =>
      intro found
      rw [Dict.get?, Dict.insert, Dict.lookup_put] at found
      exact full (List.isEmpty_iff.mpr (Json.array.inj (Option.some.inj found)))
  · rw [removeTag_of_other other]
    exact other []

/-- A call leaves the keys distinct, and everything beside the tags as it is. -/
theorem call_keeps (wellFormed : bag.WellFormed) (tagCall : TagCall) :
    (bag.call tagCall).2.WellFormed ∧ otherEntries (bag.call tagCall).2 = bag.otherEntries := by
  have inserted (value : Json) : Dict.WellFormed (bag.insert tagsKey value) ∧
      otherEntries (bag.insert tagsKey value) = bag.otherEntries :=
    ⟨Dict.nodup_put tagsKey value wellFormed, Dict.filter_put bag.entries⟩
  have erased : Dict.WellFormed (bag.erase tagsKey) ∧
      otherEntries (bag.erase tagsKey) = bag.otherEntries :=
    ⟨((Dict.drop_sublist tagsKey bag.entries).map Prod.fst).nodup wellFormed,
      Dict.filter_drop bag.entries⟩
  cases tagCall with
  | add tag =>
      rw [call, addTag_eq]
      exact inserted _
  | remove tag =>
      rcases bag.array_or_other with ⟨items, held⟩ | other
      · rw [call, removeTag_of_array held]
        dsimp only
        split
        · exact erased
        · exact inserted _
      · rw [call, removeTag_of_other other]
        exact ⟨wellFormed, rfl⟩

/-- A call does to the tags what it does to an ordered set of them. -/
theorem tags_call (wellFormed : bag.WellFormed) (tagCall : TagCall) :
    (bag.call tagCall).2.tags = tagCall.onSet bag.tags := by
  cases tagCall with
  | add tag =>
      rw [call, addTag_eq, tags_eq, tagItems_insert, TagCall.onSet]
      split
      · exact (tags_eq bag).symm
      · rw [List.filterMap_append, ← tags_eq]
        rfl
  | remove tag =>
      rw [call, tags_eq, tagItems_removeTag wellFormed, filterMap_filter_isTag, ← tags_eq]
      rfl

/-- A call keeps the items that are not strings, in their order. -/
theorem otherItems_call (wellFormed : bag.WellFormed) (tagCall : TagCall) :
    otherItems (bag.call tagCall).2 = bag.otherItems := by
  cases tagCall with
  | add tag =>
      rw [call, addTag_eq, otherItems, tagItems_insert]
      split
      · rfl
      · rw [List.filter_append]
        exact List.append_nil _
  | remove tag =>
      rw [call, otherItems, tagItems_removeTag wellFormed, List.filter_filter]
      refine List.filter_congr fun item _ => ?_
      rw [isTag]
      cases item.string? <;> simp

/-- A call says whether it changes the ordered set of the tags. -/
theorem call_iff (bag : PropertyBag) (tagCall : TagCall) :
    (bag.call tagCall).1 = true ↔ tagCall.onSet bag.tags ≠ bag.tags := by
  cases tagCall with
  | add tag =>
      rw [call, addTag_eq, decide_eq_true_iff, TagCall.onSet]
      split
      · next there => simp [there]
      · next missing => simp [missing]
  | remove tag =>
      have changed : (bag.tags.filter (· ≠ tag)) ≠ bag.tags ↔ tag ∈ bag.tags := by
        rw [Ne, List.filter_eq_self]
        simp
      rw [call, TagCall.onSet, changed]
      rcases bag.array_or_other with ⟨items, held⟩ | other
      · rw [removeTag_of_array held, decide_eq_true_iff]
      · rw [removeTag_of_other other, tags_eq, tagItems_of_other other]
        simp

/-! ## A run of calls -/

/-- A bag holds an ordered set as its tags, and beside them what another one holds. -/
structure Retagged (initial : PropertyBag) (set : List String) (bag : PropertyBag) : Prop where
  wellFormed : bag.WellFormed
  distinct : set.Nodup
  tags : bag.tags = set
  otherItems : bag.otherItems = initial.otherItems
  otherEntries : bag.otherEntries = initial.otherEntries

/-- A call keeps to the ordered set. -/
theorem Retagged.call {initial : PropertyBag} {set : List String}
    (retagged : Retagged initial set bag)
    (tagCall : TagCall) : Retagged initial (tagCall.onSet set) (bag.call tagCall).2 := by
  obtain ⟨wellFormed, distinct, rfl, items, entries⟩ := retagged
  obtain ⟨wellFormed', kept⟩ := call_keeps wellFormed tagCall
  exact ⟨wellFormed', tagCall.nodup_onSet distinct, tags_call wellFormed tagCall,
    (otherItems_call wellFormed tagCall).trans items, kept.trans entries⟩

/-- A run of calls keeps to the ordered set. -/
theorem Retagged.afterCalls {initial : PropertyBag} {set : List String}
    (retagged : Retagged initial set bag) (calls : List TagCall) :
    Retagged initial (TagCall.setAfter calls set) (bag.afterCalls calls) := by
  induction calls generalizing bag set with
  | nil => exact retagged
  | cons tagCall rest inductionHypothesis => exact inductionHypothesis (retagged.call tagCall)

/-- After any run of calls on a bag whose tags have no repetition, the tags are the ordered set
that goes through the same calls, without repetitions; a tag is there exactly if it is in the set;
the items that are no strings and the other properties are what they were, in their order. The
next call says whether it changes the set, and no removal leaves an empty array behind. -/
theorem tags_afterCalls (bag : PropertyBag) (wellFormed : bag.WellFormed)
    (distinct : ∀ items, bag.get? tagsKey = some (.array items) →
      (items.filterMap Json.string?).Nodup) (calls : List TagCall) :
    Retagged bag (TagCall.setAfter calls bag.tags) (bag.afterCalls calls) ∧
      (∀ tag, (bag.afterCalls calls).hasTag tag = true ↔ tag ∈ TagCall.setAfter calls bag.tags) ∧
      ∀ next : TagCall,
        (((bag.afterCalls calls).call next).1 = true ↔
          next.onSet (TagCall.setAfter calls bag.tags) ≠ TagCall.setAfter calls bag.tags) ∧
        ∀ tag, next = .remove tag →
          ((bag.afterCalls calls).call next).2.get? tagsKey ≠ some (.array []) := by
  have start : bag.tags.Nodup := by
    rw [tags_eq]
    rcases bag.array_or_other with ⟨items, held⟩ | other
    · rw [tagItems_of_array held]
      exact distinct items held
    · rw [tagItems_of_other other]
      exact List.nodup_nil
  have after : Retagged bag (TagCall.setAfter calls bag.tags) (bag.afterCalls calls) :=
    Retagged.afterCalls ⟨wellFormed, start, rfl, rfl, rfl⟩ calls
  refine ⟨after, fun tag => ?_, fun next => ⟨?_, ?_⟩⟩
  · rw [hasTag_iff, after.tags]
  · rw [call_iff, after.tags]
  · rintro tag rfl
    exact removeTag_ne_empty after.wellFormed tag

/-- A bag with a number among its tags, between two other properties. -/
def mixedTags : PropertyBag :=
  ⟨[("owner", .string "us"),
    ("tags", .array [.string "old", .number (.integer 1)]), ("kept", .null)]⟩

/-- The number stays when the only tag is removed and another one is added. -/
theorem tags_afterCalls_mixedTags :
    let after := mixedTags.afterCalls [.remove "old", .add "new"]
    after.tags = ["new"] ∧ after.hasTag "new" = true ∧
      after.otherItems = [.number (.integer 1)] ∧
      after.otherEntries = [("owner", .string "us"), ("kept", .null)] ∧
      (after.call (.add "new")).1 = false := by
  have wellFormed : mixedTags.WellFormed := by
    decide
  have distinct : ∀ items, mixedTags.get? tagsKey = some (.array items) →
      (items.filterMap Json.string?).Nodup := by
    intro items held
    obtain rfl := Json.array.inj (Option.some.inj held)
    decide
  obtain ⟨retagged, has, next⟩ :=
    tags_afterCalls mixedTags wellFormed distinct [.remove "old", .add "new"]
  refine ⟨retagged.tags, (has "new").mpr (by decide),
    retagged.otherItems, retagged.otherEntries, ?_⟩
  rw [Bool.eq_false_iff, Ne, (next (.add "new")).1]
  decide

end PropertyBag
end Sarif
