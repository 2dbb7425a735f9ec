import Mathlib.Data.List.MinMax
import Sarif.Build
import Sarif.Proofs.NodeList
import Sarif.Rules

/-!
# Hierarchical rule ids

An id lies below another if it goes on with a slash where the other ends. A result whose id is not
that of a rule is about the nearest rule above it. What is looked for instead is the part of the
id before its first slash (`Result.rule?_eq_some_iff_of_id`), so the nearest rule is found exactly
if it has the id itself or its id has no slash (`Result.rule?_eq_nearest_iff`).
-/

namespace Sarif

/-! ## Ids -/

namespace RuleId

/-- An id is another one or lies above it. -/
def Covers (base id : String) : Prop :=
  base = id ∨ base.toList ++ ['/'] <+: id.toList

instance (base id : String) : Decidable (Covers base id) :=
  inferInstanceAs (Decidable (base = id ∨ base.toList ++ ['/'] <+: id.toList))

variable {base other id : String}

/-- An id begins as the ids above it. -/
theorem Covers.isPrefix (covers : Covers base id) : base.toList <+: id.toList := by
  rcases covers with rfl | above
  · exact List.prefix_refl _
  · exact (List.prefix_append ..).trans above

/-- Of the ids that cover an id there is at most one of a length. -/
theorem Covers.eq_of_length_le (covers : Covers base id) (covers' : Covers other id)
    (shorter : base.length ≤ other.length) (longer : other.length ≤ base.length) :
    base = other := by
  have starts : base.toList <+: other.toList :=
    List.prefix_of_prefix_length_le covers.isPrefix covers'.isPrefix shorter
  exact String.toList_injective (starts.eq_of_length_le longer)

/-- An id that lies above another is shorter. -/
theorem length_lt_of_above (above : base.toList ++ ['/'] <+: id.toList) :
    base.length < id.length := by
  have lengths := above.length_le
  rwa [List.length_append] at lengths

end RuleId

namespace Result

variable {base id : String}

/-- The base of an id is what stands before the first slash. -/
theorem baseId?_of_eq {before after : List Char} (plain : '/' ∉ before)
    (eq : id.toList = before ++ '/' :: after) : baseId? id = some (String.ofList before) := by
  have slashed : id.toList.contains '/' = true := by simp [eq]
  have whole : id.toList.takeWhile (· != '/') = before := by
    rw [eq, List.takeWhile_append_of_pos]
    · simp
    · intro c among
      exact bne_iff_ne.mpr fun slash => plain (slash ▸ among)
  rw [baseId?, if_pos slashed, whole]

/-- The base of an id is the one above it that has no slash. -/
theorem baseId?_eq_some_iff :
    baseId? id = some base ↔ '/' ∉ base.toList ∧ base.toList ++ ['/'] <+: id.toList := by
  constructor
  · intro found
    have slashed : '/' ∈ id.toList := by
      by_contra plain
      simp [baseId?, plain] at found
    obtain ⟨before, after, eq, plain⟩ := List.eq_append_cons_of_mem slashed
    obtain rfl := Option.some.inj (found.symm.trans (baseId?_of_eq plain eq))
    rw [String.toList_ofList]
    exact ⟨plain, after, by simp [eq]⟩
  · rintro ⟨plain, after, eq⟩
    have split : id.toList = base.toList ++ '/' :: after := by simp [← eq]
    rw [baseId?_of_eq plain split, String.ofList_toList]

end Result

/-- How long the id of a rule is. -/
def ReportingDescriptor.idLength (rule : ReportingDescriptor) : Nat :=
  String.length (rule.get id)

namespace ToolComponent

/-- The slots of a component for rules. -/
def ruleSlots (component : ToolComponent) : NodeList ReportingDescriptor :=
  (component.get rules).getD []

/-- A rule is in the first slot that holds a rule of its id. -/
def FirstOfId (component : ToolComponent) (rule : ReportingDescriptor) : Prop :=
  ∃ before after, component.ruleSlots = before ++ some rule :: after ∧
    ∀ other : ReportingDescriptor, some other ∈ before →
      other.get ReportingDescriptor.id ≠ rule.get ReportingDescriptor.id

/-- The rules of a component whose id covers an id. -/
def rulesCovering (component : ToolComponent) (id : String) : List ReportingDescriptor :=
  (NodeList.populated component.ruleSlots).filter fun rule =>
    RuleId.Covers (rule.get ReportingDescriptor.id) id

/-- The rule that an id should lead to: of the rules whose id covers it the one with the longest id,
in the first slot that holds a rule of that id. -/
structure NearestRule (component : ToolComponent) (id : String) (rule : ReportingDescriptor) :
    Prop where
  covers : RuleId.Covers (rule.get ReportingDescriptor.id) id
  longest : ∀ other : ReportingDescriptor, some other ∈ component.ruleSlots →
    RuleId.Covers (other.get ReportingDescriptor.id) id → other.idLength ≤ rule.idLength
  first : component.FirstOfId rule

variable {component : ToolComponent} {id : String} {rule other : ReportingDescriptor}

/-- A rule that is the first of its id is in a slot. -/
theorem FirstOfId.held (first : component.FirstOfId rule) : some rule ∈ component.ruleSlots := by
  obtain ⟨before, after, eq, _⟩ := first
  rw [eq]
  exact List.mem_append_right before (List.mem_cons_self ..)

/-- A rule is looked for in the slots for rules. -/
theorem ruleOfId?_eq_find? (component : ToolComponent) (id : String) :
    component.ruleOfId? id = (NodeList.populated component.ruleSlots).find?
      fun rule => rule.get ReportingDescriptor.id == id := by
  rw [ruleOfId?, ruleSlots]
  cases component.get rules with
  | none => rfl
  | some slots => rfl

/-- A rule is found by its id if it is the first of that id. -/
theorem ruleOfId?_eq_some_iff :
    component.ruleOfId? id = some rule ↔
      rule.get ReportingDescriptor.id = id ∧ component.FirstOfId rule := by
  rw [ruleOfId?_eq_find?, NodeList.find?_populated_eq_some_iff, beq_iff_eq]
  refine and_congr_right fun same => ?_
  simp only [FirstOfId, same, beq_eq_false_iff_ne]

/-- No rule is found by an id if none has it. -/
theorem ruleOfId?_eq_none_iff :
    component.ruleOfId? id = none ↔ ∀ rule : ReportingDescriptor,
      some rule ∈ component.ruleSlots → rule.get ReportingDescriptor.id ≠ id := by
  simp [ruleOfId?_eq_find?, NodeList.mem_populated]

/-- A rule covers an id if a slot holds it and its id does. -/
theorem mem_rulesCovering : rule ∈ component.rulesCovering id ↔
    some rule ∈ component.ruleSlots ∧ RuleId.Covers (rule.get ReportingDescriptor.id) id := by
  rw [rulesCovering, List.mem_filter, NodeList.mem_populated, decide_eq_true_eq]

/-- If the id of some rule covers an id, there is a nearest rule. -/
theorem exists_nearestRule
    (known : ∃ rule : ReportingDescriptor, some rule ∈ component.ruleSlots ∧
      RuleId.Covers (rule.get ReportingDescriptor.id) id) :
    ∃ nearest, component.NearestRule id nearest := by
  obtain ⟨rule, covering⟩ := known
  have nonempty : (component.rulesCovering id).argmax ReportingDescriptor.idLength ≠ none := by
    rw [ne_eq, List.argmax_eq_none]
    exact List.ne_nil_of_mem (mem_rulesCovering.mpr covering)
  obtain ⟨longest, maximal⟩ := Option.ne_none_iff_exists'.mp nonempty
  obtain ⟨held, covers⟩ := mem_rulesCovering.mp (List.argmax_mem maximal)
  -- Of the rules with the longest id the first is looked up.
  have known : component.ruleOfId? (longest.get ReportingDescriptor.id) ≠ none :=
    fun unknown => ruleOfId?_eq_none_iff.mp unknown longest held rfl
  obtain ⟨nearest, found⟩ := Option.ne_none_iff_exists'.mp known
  obtain ⟨same, first⟩ := ruleOfId?_eq_some_iff.mp found
  have lengths : nearest.idLength = longest.idLength := congrArg String.length same
  refine ⟨nearest, ?_, fun other held covers => ?_, first⟩
  · rwa [same]
  · rw [lengths]
    exact List.le_of_mem_argmax (mem_rulesCovering.mpr ⟨held, covers⟩) maximal

/-- There is one nearest rule. -/
theorem NearestRule.unique (near : component.NearestRule id rule)
    (near' : component.NearestRule id other) : rule = other := by
  have same : rule.get ReportingDescriptor.id = other.get ReportingDescriptor.id :=
    near.covers.eq_of_length_le near'.covers
      (near'.longest rule near.first.held near.covers)
      (near.longest other near'.first.held near'.covers)
  have found := ruleOfId?_eq_some_iff.mpr ⟨same, near.first⟩
  have found' := ruleOfId?_eq_some_iff.mpr ⟨rfl, near'.first⟩
  exact Option.some.inj (found.symm.trans found')

end ToolComponent

namespace Result

variable {result : Result} {run : Run} {component : ToolComponent} {id : String}
  {rule nearest : ReportingDescriptor}

/-- Neither a result nor its reference to a rule has an index exactly if no index is in effect. -/
theorem ruleIndexInEffect?_eq_none_iff :
    result.ruleIndexInEffect? = none ↔ Sentinel.value? (result.get ruleIndex) = none ∧
      ∀ reference, result.get Result.rule = some reference →
        Sentinel.value? (reference.get ReportingDescriptorReference.index) = none := by
  rw [ruleIndexInEffect?, Option.or_eq_none_iff, Option.bind_eq_none_iff]

/-- Without an index the rule of a result is the first one of its id or, if there is none, the first
one of the id above it that has no slash. -/
theorem rule?_eq_some_iff_of_id (unindexed : result.ruleIndexInEffect? = none)
    (selected : result.component? run = some component)
    (named : result.ruleIdInEffect? = some id) :
    result.rule? run = some rule ↔ component.FirstOfId rule ∧
      (rule.get ReportingDescriptor.id = id ∨
        (∀ other : ReportingDescriptor, some other ∈ component.ruleSlots →
          other.get ReportingDescriptor.id ≠ id) ∧
        '/' ∉ (rule.get ReportingDescriptor.id : String).toList ∧
        (rule.get ReportingDescriptor.id : String).toList ++ ['/'] <+: id.toList) := by
  have lookup : result.rule? run =
      (component.ruleOfId? id).or ((baseId? id).bind component.ruleOfId?) := by
    simp [Result.rule?, selected, unindexed, named]
  rw [lookup, Option.or_eq_some_iff, ToolComponent.ruleOfId?_eq_some_iff,
    ToolComponent.ruleOfId?_eq_none_iff, Option.bind_eq_some_iff]
  constructor
  · rintro (⟨same, first⟩ | ⟨unknown, base, above, found⟩)
    · exact ⟨first, .inl same⟩
    · obtain ⟨same, first⟩ := ToolComponent.ruleOfId?_eq_some_iff.mp found
      exact ⟨first, .inr ⟨unknown, baseId?_eq_some_iff.mp (same ▸ above)⟩⟩
  · rintro ⟨first, same | ⟨unknown, above⟩⟩
    · exact .inl ⟨same, first⟩
    · exact .inr ⟨unknown, _, baseId?_eq_some_iff.mpr above,
        ToolComponent.ruleOfId?_eq_some_iff.mpr ⟨rfl, first⟩⟩

/-- The rule of a result without an index is the nearest one exactly if this has the id itself or an
id without a slash. -/
theorem rule?_eq_nearest_iff (unindexed : result.ruleIndexInEffect? = none)
    (selected : result.component? run = some component)
    (named : result.ruleIdInEffect? = some id) (near : component.NearestRule id nearest) :
    result.rule? run = some nearest ↔ nearest.get ReportingDescriptor.id = id ∨
      '/' ∉ (nearest.get ReportingDescriptor.id : String).toList := by
  rw [rule?_eq_some_iff_of_id unindexed selected named]
  constructor
  · rintro ⟨_, same | ⟨_, plain, _⟩⟩
    · exact .inl same
    · exact .inr plain
  · intro direct
    refine ⟨near.first, ?_⟩
    rcases near.covers with same | above
    · exact .inl same
    · have shorter := RuleId.length_lt_of_above above
      have lower : nearest.get ReportingDescriptor.id ≠ id :=
        fun same => Nat.ne_of_lt shorter (congrArg String.length same)
      refine .inr ⟨fun other held same => ?_, direct.resolve_left lower, above⟩
      have whole : other.idLength = id.length := congrArg String.length same
      exact Nat.not_lt_of_le (whole ▸ near.longest other held (.inl same)) shorter

/-- The rule of a result without an index is the nearest one or one further up. -/
theorem eq_nearest_or_shorter (unindexed : result.ruleIndexInEffect? = none)
    (selected : result.component? run = some component)
    (named : result.ruleIdInEffect? = some id) (near : component.NearestRule id nearest)
    (found : result.rule? run = some rule) :
    rule = nearest ∨ rule.idLength < nearest.idLength := by
  obtain ⟨first, reached⟩ := (rule?_eq_some_iff_of_id unindexed selected named).mp found
  have covers : RuleId.Covers (rule.get ReportingDescriptor.id) id :=
    reached.imp_right fun above => above.2.2
  refine (Nat.eq_or_lt_of_le (near.longest rule first.held covers)).imp_left fun same => ?_
  refine ToolComponent.NearestRule.unique ⟨covers, fun other held covers => ?_, first⟩ near
  rw [same]
  exact near.longest other held covers

/-- If neither a result nor its reference to a rule has an index, and the id of some rule of the
component covers the id of the result, there is one nearest rule of this id. The rule of the
result is this one exactly if its id is that of the result or has no slash; otherwise the result
has no rule or one further up. -/
theorem rule?_hierarchical (result : Result) (run : Run)
    (unset : Sentinel.value? (result.get ruleIndex) = none)
    (referenceUnset : ∀ reference, result.get Result.rule = some reference →
      Sentinel.value? (reference.get ReportingDescriptorReference.index) = none)
    (selected : result.component? run = some component)
    (named : result.ruleIdInEffect? = some id)
    (known : ∃ rule : ReportingDescriptor, some rule ∈ component.ruleSlots ∧
      RuleId.Covers (rule.get ReportingDescriptor.id) id) :
    ∃ nearest, component.NearestRule id nearest ∧
      (∀ other, component.NearestRule id other → other = nearest) ∧
      (result.rule? run = some nearest ↔ nearest.get ReportingDescriptor.id = id ∨
        '/' ∉ (nearest.get ReportingDescriptor.id : String).toList) ∧
      ∀ rule, result.rule? run = some rule →
        rule = nearest ∨ rule.idLength < nearest.idLength := by
  have unindexed := ruleIndexInEffect?_eq_none_iff.mpr ⟨unset, referenceUnset⟩
  obtain ⟨nearest, near⟩ := ToolComponent.exists_nearestRule known
  exact ⟨nearest, near, fun other near' => near'.unique near,
    rule?_eq_nearest_iff unindexed selected named near,
    fun rule found => eq_nearest_or_shorter unindexed selected named near found⟩

/-- A component with an empty slot, a rule whose id has a slash, and one whose id has none. -/
def slashedComponent : ToolComponent :=
  (ToolComponent.named "demo").set ToolComponent.rules
    (some [none, some (ReportingDescriptor.ofId "demo/unpinned-uses"),
      some (ReportingDescriptor.ofId "C2001")])

/-- A run of a tool with this component as its driver. -/
def slashedRun : Run :=
  Run.ofTool ((Node.default .tool).set Tool.driver slashedComponent)

/-- A result about a part of a rule has this rule if the id of the rule has no slash, and not if it
has one. -/
theorem rule?_hierarchical_slashedRun :
    slashedComponent.NearestRule "C2001/1" (ReportingDescriptor.ofId "C2001") ∧
      (forRule "C2001/1" (Message.ofText "")).rule? slashedRun =
        some (ReportingDescriptor.ofId "C2001") ∧
      slashedComponent.NearestRule "demo/unpinned-uses/1"
        (ReportingDescriptor.ofId "demo/unpinned-uses") ∧
      (forRule "demo/unpinned-uses/1" (Message.ofText "")).rule? slashedRun ≠
        some (ReportingDescriptor.ofId "demo/unpinned-uses") := by
  have slots : slashedComponent.ruleSlots =
      [none, some (ReportingDescriptor.ofId "demo/unpinned-uses"),
        some (ReportingDescriptor.ofId "C2001")] := rfl
  have held_cases {other : ReportingDescriptor} (held : some other ∈ slashedComponent.ruleSlots) :
      other = ReportingDescriptor.ofId "demo/unpinned-uses" ∨
        other = ReportingDescriptor.ofId "C2001" := by
    simpa [slots] using held
  have plain : slashedComponent.NearestRule "C2001/1" (ReportingDescriptor.ofId "C2001") := by
    refine ⟨by decide, fun other held covers => ?_, [none, some _], [], slots, ?_⟩
    · rcases held_cases held with rfl | rfl
      · exact absurd covers (by decide)
      · exact Nat.le_refl _
    · intro other among
      obtain rfl : other = ReportingDescriptor.ofId "demo/unpinned-uses" := by simpa using among
      decide
  have slashed : slashedComponent.NearestRule "demo/unpinned-uses/1"
      (ReportingDescriptor.ofId "demo/unpinned-uses") := by
    refine ⟨by decide, fun other held covers => ?_, [none], [some _], slots, nofun⟩
    rcases held_cases held with rfl | rfl
    · exact Nat.le_refl _
    · exact absurd covers (by decide)
  obtain ⟨_, _, unique, found, _⟩ := rule?_hierarchical
    (forRule "C2001/1" (Message.ofText "")) slashedRun rfl nofun rfl rfl
    ⟨_, plain.first.held, plain.covers⟩
  obtain ⟨_, _, unique', missed, _⟩ := rule?_hierarchical
    (forRule "demo/unpinned-uses/1" (Message.ofText "")) slashedRun rfl nofun rfl rfl
    ⟨_, slashed.first.held, slashed.covers⟩
  rw [← unique _ plain] at found
  rw [← unique' _ slashed] at missed
  exact ⟨plain, found.mpr (by decide), slashed, mt missed.mp (by decide)⟩

end Result
end Sarif
