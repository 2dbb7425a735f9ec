import Sarif.Build
import Sarif.Proofs.Rules.Components
import Sarif.Proofs.Rules.Hierarchy

/-!
# Rules of results

The rule of a result is one that the component of its reference holds. An index decides alone, the
result's own before that of its reference; the id counts if there is no index, and then a rule of
just that id comes before one of an id above it (`Result.rule?_sound`).
-/

namespace Sarif
namespace Result

/-! ## What a result refers to -/

/-- A result refers to the component that its reference to a rule selects, or else to the driver. -/
inductive RefersToComponent (result : Result) (run : Run) (component : ToolComponent) : Prop where
  | driver
      (none : ∀ reference, result.get Result.rule = some reference →
        reference.get ReportingDescriptorReference.toolComponent = none)
      (eq : Node.get (run.get Run.tool) Tool.driver = component)
  | ofReference {reference : ReportingDescriptorReference} {selector : ToolComponentReference}
      (given : result.get Result.rule = some reference)
      (named : reference.get ReportingDescriptorReference.toolComponent = some selector)
      (selects : Tool.Selects (run.get Run.tool) selector (some component))

/-- A result refers to its rule by an index: its own, or else that of its reference. -/
inductive RefersByIndex (result : Result) (i : Nat) : Prop where
  | own (index : Sentinel.value? (result.get ruleIndex) = some i)
  | ofReference {reference : ReportingDescriptorReference}
      (unset : Sentinel.value? (result.get ruleIndex) = none)
      (given : result.get Result.rule = some reference)
      (index : Sentinel.value? (reference.get ReportingDescriptorReference.index) = some i)

/-- A result refers to its rule by an id: its own, or else that of its reference. -/
inductive RefersById (result : Result) (id : String) : Prop where
  | own (named : result.get ruleId = some id)
  | ofReference {reference : ReportingDescriptorReference} (unnamed : result.get ruleId = none)
      (given : result.get Result.rule = some reference)
      (named : reference.get ReportingDescriptorReference.id = some id)

variable {result : Result} {run : Run} {component : ToolComponent} {id : String} {i : Nat}
  {rule : ReportingDescriptor}

/-- The component of a result is the one that the result refers to. -/
theorem component?_eq_some_iff :
    result.component? run = some component ↔ result.RefersToComponent run component := by
  rw [Result.component?]
  constructor
  · intro found
    cases given : (result.get Result.rule).bind
        (Node.get · ReportingDescriptorReference.toolComponent) with
    | none =>
        rw [given] at found
        exact .driver (Option.bind_eq_none_iff.mp given) (Option.some.inj found)
    | some selector =>
        rw [given] at found
        obtain ⟨reference, given, named⟩ := Option.bind_eq_some_iff.mp given
        exact .ofReference given named (found ▸ Tool.selects_component? _ selector)
  · rintro (⟨none, rfl⟩ | ⟨given, named, selects⟩)
    · rw [Option.bind_eq_none_iff.mpr none, Tool.component?]
    · rw [Option.bind_eq_some_iff.mpr ⟨_, given, named⟩]
      exact Tool.component?_eq_of_selects selects

/-- The index in effect is the one that a result refers by. -/
theorem ruleIndexInEffect?_eq_some_iff :
    result.ruleIndexInEffect? = some i ↔ result.RefersByIndex i := by
  rw [ruleIndexInEffect?, Option.or_eq_some_iff, Option.bind_eq_some_iff]
  constructor
  · rintro (index | ⟨unset, reference, given, index⟩)
    · exact .own index
    · exact .ofReference unset given index
  · rintro (index | ⟨unset, given, index⟩)
    · exact .inl index
    · exact .inr ⟨unset, _, given, index⟩

/-- No index is in effect exactly if a result refers by none. -/
theorem ruleIndexInEffect?_eq_none_iff_forall :
    result.ruleIndexInEffect? = none ↔ ∀ i, ¬ result.RefersByIndex i := by
  rw [Option.eq_none_iff_forall_ne_some]
  exact forall_congr' fun i => not_congr ruleIndexInEffect?_eq_some_iff

/-- The id in effect is the one that a result refers by. -/
theorem ruleIdInEffect?_eq_some_iff : result.ruleIdInEffect? = some id ↔ result.RefersById id := by
  rw [ruleIdInEffect?, Option.or_eq_some_iff, Option.bind_eq_some_iff]
  constructor
  · rintro (named | ⟨unnamed, reference, given, named⟩)
    · exact .own named
    · exact .ofReference unnamed given named
  · rintro (named | ⟨unnamed, given, named⟩)
    · exact .inl named
    · exact .inr ⟨unnamed, _, given, named⟩

/-! ## What is found -/

/-- An index leads to what the slot of the component for a rule holds. -/
theorem rule?_of_index (selected : result.component? run = some component)
    (index : result.ruleIndexInEffect? = some i) :
    result.rule? run = NodeList.at? component.ruleSlots i := by
  have lookup : result.rule? run = component.rule? i := by
    simp [Result.rule?, selected, index]
  rw [lookup, ToolComponent.rule?, ToolComponent.ruleSlots]
  cases component.get ToolComponent.rules <;> rfl

/-- Without an index and an id a result has no rule. -/
theorem rule?_of_nothing (unindexed : result.ruleIndexInEffect? = none)
    (unnamed : result.ruleIdInEffect? = none) : result.rule? run = none := by
  rw [Result.rule?, unindexed, unnamed]
  cases result.component? run <;> rfl

/-- The rule of a result is held by the component of the result. -/
theorem exists_held_of_rule? (found : result.rule? run = some rule) :
    ∃ component, result.component? run = some component ∧ some rule ∈ component.ruleSlots := by
  obtain ⟨component, selected, _⟩ := Option.bind_eq_some_iff.mp found
  refine ⟨component, selected, ?_⟩
  cases index : result.ruleIndexInEffect? with
  | some i =>
      rw [rule?_of_index selected index, NodeList.at?_eq_some_iff] at found
      exact List.mem_of_getElem? found
  | none =>
      cases named : result.ruleIdInEffect? with
      | some id => exact ((rule?_eq_some_iff_of_id index selected named).mp found).1.held
      | none => cases found.symm.trans (rule?_of_nothing index named)

/-- Without an index, the id of the rule of a result is the id that the result refers by or lies
above it. -/
theorem covers_of_rule? (unindexed : result.ruleIndexInEffect? = none)
    (selected : result.component? run = some component)
    (named : result.ruleIdInEffect? = some id) (found : result.rule? run = some rule) :
    RuleId.Covers (rule.get ReportingDescriptor.id) id :=
  ((rule?_eq_some_iff_of_id unindexed selected named).mp found).2.imp_right fun above => above.2.2

/-- Without an index, if a rule has the id that a result refers by, the first such is the rule of
the result. -/
theorem exists_first_of_id (unindexed : result.ruleIndexInEffect? = none)
    (selected : result.component? run = some component)
    (named : result.ruleIdInEffect? = some id) (held : some rule ∈ component.ruleSlots)
    (same : rule.get ReportingDescriptor.id = id) :
    ∃ first, result.rule? run = some first ∧ first.get ReportingDescriptor.id = id ∧
      component.FirstOfId first := by
  have known : component.ruleOfId? id ≠ none := fun unknown =>
    ToolComponent.ruleOfId?_eq_none_iff.mp unknown rule held same
  obtain ⟨first, found⟩ := Option.ne_none_iff_exists'.mp known
  obtain ⟨firstSame, isFirst⟩ := ToolComponent.ruleOfId?_eq_some_iff.mp found
  exact ⟨first, (rule?_eq_some_iff_of_id unindexed selected named).mpr ⟨isFirst, .inl firstSame⟩,
    firstSame, isFirst⟩

/-- The rule of a result is held by the component that the result refers to. If the result refers
by an index, its rule is what the slot at that index holds. If it does not, it has no rule unless
it refers by an id; the id of its rule is this one or lies above it, and if a rule has just this
id, the first such is the rule of the result. -/
theorem rule?_sound (result : Result) (run : Run) :
    (∀ rule, result.rule? run = some rule →
      ∃ component, result.RefersToComponent run component ∧ some rule ∈ component.ruleSlots) ∧
    ∀ component, result.RefersToComponent run component →
      (∀ i, result.RefersByIndex i → ∀ rule,
        result.rule? run = some rule ↔ component.ruleSlots[i]? = some (some rule)) ∧
      ((∀ i, ¬ result.RefersByIndex i) →
        ((∀ id, ¬ result.RefersById id) → result.rule? run = none) ∧
        ∀ id, result.RefersById id →
          (∀ rule, result.rule? run = some rule →
            RuleId.Covers (rule.get ReportingDescriptor.id) id) ∧
          ∀ rule : ReportingDescriptor, some rule ∈ component.ruleSlots →
            rule.get ReportingDescriptor.id = id →
            ∃ first, result.rule? run = some first ∧ first.get ReportingDescriptor.id = id ∧
              component.FirstOfId first) := by
  refine ⟨fun rule found => ?_, fun component refers => ?_⟩
  · obtain ⟨component, selected, held⟩ := exists_held_of_rule? found
    exact ⟨component, component?_eq_some_iff.mp selected, held⟩
  have selected := component?_eq_some_iff.mpr refers
  constructor
  · intro i refersBy rule
    have index := ruleIndexInEffect?_eq_some_iff.mpr refersBy
    rw [rule?_of_index selected index, NodeList.at?_eq_some_iff]
  · intro refersByNone
    have unindexed := ruleIndexInEffect?_eq_none_iff_forall.mpr refersByNone
    constructor
    · intro unnamed
      refine rule?_of_nothing unindexed (Option.eq_none_iff_forall_ne_some.mpr fun id named => ?_)
      exact unnamed id (ruleIdInEffect?_eq_some_iff.mp named)
    · intro id refersBy
      have named := ruleIdInEffect?_eq_some_iff.mpr refersBy
      exact ⟨fun rule => covers_of_rule? unindexed selected named,
        fun rule => exists_first_of_id unindexed selected named⟩

/-- An extension with an empty slot, a rule, and a part of the rule as a rule of its own. -/
def layeredComponent : ToolComponent :=
  (ToolComponent.named "extension").set ToolComponent.rules
    (some [none, some (ReportingDescriptor.ofId "C2001"),
      some (ReportingDescriptor.ofId "C2001/1")])

/-- A run whose driver has no rules and whose second slot for extensions holds this one. -/
def extensionRun : Run :=
  Run.ofTool ((Tool.named "driver").set Tool.extensions (some [none, some layeredComponent]))

/-- A result about the part of the rule, in the extension with index 1. -/
def extensionResult : Result :=
  (forRule "C2001/1" (Message.ofText "")).set Result.rule
    (some ((Node.default .reportingDescriptorReference).set
      ReportingDescriptorReference.toolComponent
      (some ((Node.default .toolComponentReference).set ToolComponentReference.index
        (Sentinel.ofNat 1)))))

/-- The result has the rule of just its id; with an index it has the rule in the slot of the
index. -/
theorem rule?_sound_extension :
    extensionResult.RefersToComponent extensionRun layeredComponent ∧
      (∃ first, extensionResult.rule? extensionRun = some first ∧
        first.get ReportingDescriptor.id = "C2001/1") ∧
      Result.rule? (extensionResult.set ruleIndex (Sentinel.ofNat 1)) extensionRun =
        some (ReportingDescriptor.ofId "C2001") := by
  have refers : extensionResult.RefersToComponent extensionRun layeredComponent :=
    .ofReference rfl rfl (.extension rfl rfl)
  have refers' : RefersToComponent (extensionResult.set ruleIndex (Sentinel.ofNat 1)) extensionRun
      layeredComponent := .ofReference rfl rfl (.extension rfl rfl)
  obtain ⟨_, found⟩ := rule?_sound extensionResult extensionRun
  obtain ⟨_, found'⟩ := rule?_sound (extensionResult.set ruleIndex (Sentinel.ofNat 1)) extensionRun
  have unindexed : ∀ i, ¬ extensionResult.RefersByIndex i :=
    ruleIndexInEffect?_eq_none_iff_forall.mp rfl
  have held : some (ReportingDescriptor.ofId "C2001/1") ∈ layeredComponent.ruleSlots :=
    .tail _ (.tail _ (.head _))
  obtain ⟨first, isRule, same, _⟩ :=
    (((found _ refers).2 unindexed).2 "C2001/1" (.own rfl)).2 _ held rfl
  exact ⟨refers, ⟨first, isRule, same⟩, ((found' _ refers').1 1 (.own rfl) _).mpr rfl⟩

end Result
end Sarif
