import Mathlib.Data.List.Forall2
import Sarif.Build
import Sarif.Proofs.NodeList
import Sarif.Rules

/-!
# Components of a tool

A reference selects a component of a tool by index, by globally unique name or by name. An index
counts the slots of the extensions, empty ones included, and nothing else is looked at. The names
are looked for in the driver and then in the extensions; the plain name matters only if no
component has the globally unique one. `Tool.component?_eq_iff_selects` says that the selected
component is the one that is found.
-/

namespace Sarif

/-! ## The case of letters -/

/-- Two characters are the same up to the case of an ASCII letter: the codes of a capital letter and
its small letter are 32 apart. -/
def SameLetter (c d : Char) : Prop :=
  c = d ∨ (c.isUpper = true ∧ d.toNat = c.toNat + 32) ∨ (d.isUpper = true ∧ c.toNat = d.toNat + 32)

namespace SameLetter

variable {c d : Char}

/-- The codes of capital letters. -/
theorem isUpper_iff : c.isUpper = true ↔ 65 ≤ c.toNat ∧ c.toNat ≤ 90 := by
  refine decide_eq_true_iff.trans ?_
  rw [ge_iff_le, UInt32.le_iff_toNat_le, UInt32.le_iff_toNat_le]
  rfl

/-- The code of the small letter of a capital letter. -/
theorem toNat_toLower (upper : c.isUpper = true) : c.toLower.toNat = c.toNat + 32 := by
  obtain ⟨_, atMost⟩ := isUpper_iff.mp upper
  have small : c.toNat + 32 < 2 ^ 32 := by omega
  have letter : c.val ≥ 'A'.val ∧ c.val ≤ 'Z'.val := of_decide_eq_true upper
  have lowered : c.toLower = _ := dif_pos letter
  rw [lowered]
  exact (UInt32.toNat_add ..).trans (Nat.mod_eq_of_lt small)

/-- What is no capital letter has no other small letter. -/
theorem toLower_eq_self (other : c.isUpper = false) : c.toLower = c :=
  dif_neg (of_decide_eq_false other)

/-- A capital letter and its small letter have one small letter. -/
theorem toLower_eq_of_code (upper : c.isUpper = true) (code : d.toNat = c.toNat + 32) :
    c.toLower = d.toLower := by
  have lower : d.isUpper = false := by
    have bounds := isUpper_iff.mp upper
    refine Bool.eq_false_iff.mpr fun upper' => ?_
    have bounds' := isUpper_iff.mp upper'
    omega
  rw [toLower_eq_self lower]
  exact Char.toNat_inj.mp ((toNat_toLower upper).trans code.symm)

/-- Characters are the same up to case exactly if they have one small letter. -/
theorem iff_toLower_eq : SameLetter c d ↔ c.toLower = d.toLower := by
  constructor
  · rintro (rfl | ⟨upper, code⟩ | ⟨upper, code⟩)
    · rfl
    · exact toLower_eq_of_code upper code
    · exact (toLower_eq_of_code upper code).symm
  · intro same
    have codes := congrArg Char.toNat same
    cases first : c.isUpper with
    | false =>
        cases second : d.isUpper with
        | false => exact .inl (by rwa [toLower_eq_self first, toLower_eq_self second] at same)
        | true =>
            rw [toLower_eq_self first, toNat_toLower second] at codes
            exact .inr (.inr ⟨second, codes⟩)
    | true =>
        cases second : d.isUpper with
        | false =>
            rw [toNat_toLower first, toLower_eq_self second] at codes
            exact .inr (.inl ⟨first, codes.symm⟩)
        | true =>
            rw [toNat_toLower first, toNat_toLower second] at codes
            exact .inl (Char.toNat_inj.mp (Nat.add_right_cancel codes))

end SameLetter

namespace Tool

/-- Texts agree up to case exactly if they do so letter by letter. -/
theorem sameIgnoringCase_iff {s t : String} :
    sameIgnoringCase s t = true ↔ List.Forall₂ SameLetter s.toList t.toList := by
  have letters : SameLetter = fun c d : Char => c.toLower = d.toLower :=
    funext fun c => funext fun d => propext SameLetter.iff_toLower_eq
  rw [sameIgnoringCase, beq_iff_eq, ← List.forall₂_eq_eq_eq, List.forall₂_map_left_iff,
    List.forall₂_map_right_iff, letters]

/-! ## Components in order -/

/-- The slots of a tool for extensions. -/
def extensionSlots (tool : Tool) : NodeList ToolComponent :=
  (tool.get extensions).getD []

/-- The slots of a tool for components: the driver comes before the extensions. -/
def componentSlots (tool : Tool) : NodeList ToolComponent :=
  some (tool.get driver) :: tool.extensionSlots

/-- A component is in the first slot that holds one with a property. -/
def FirstWith (tool : Tool) (property : ToolComponent → Prop) (component : ToolComponent) : Prop :=
  property component ∧ ∃ before after, tool.componentSlots = before ++ some component :: after ∧
    ∀ other, some other ∈ before → ¬ property other

/-- No component of a tool has a property. -/
def NoneWith (tool : Tool) (property : ToolComponent → Prop) : Prop :=
  ∀ component, some component ∈ tool.componentSlots → ¬ property component

end Tool

namespace ToolComponent

/-- A component has a globally unique name, in upper or lower case. -/
def HasGuid (guid : String) (component : ToolComponent) : Prop :=
  ∃ own, component.get ToolComponent.guid = some own ∧
    List.Forall₂ SameLetter guid.toList own.toList

/-- A component has a name. -/
def HasName (name : String) (component : ToolComponent) : Prop :=
  component.get ToolComponent.name = name

end ToolComponent

/-! ## What a reference selects -/

namespace Tool

/-- What a reference to a component selects in a tool. -/
inductive Selects (tool : Tool) (reference : ToolComponentReference) :
    Option ToolComponent → Prop where
  /-- An index selects the extension in its slot. -/
  | extension {i : Nat} {component : ToolComponent}
      (index : Sentinel.value? (reference.get ToolComponentReference.index) = some i)
      (slot : tool.extensionSlots[i]? = some (some component)) :
      Selects tool reference (some component)
  /-- An index of an empty slot, or of none, selects nothing. -/
  | noExtension {i : Nat}
      (index : Sentinel.value? (reference.get ToolComponentReference.index) = some i)
      (slot : ∀ component, tool.extensionSlots[i]? ≠ some (some component)) :
      Selects tool reference none
  /-- A globally unique name selects the first component that has it. -/
  | byGuid {guid : String} {component : ToolComponent}
      (unset : Sentinel.value? (reference.get ToolComponentReference.index) = none)
      (given : reference.get ToolComponentReference.guid = some guid)
      (first : tool.FirstWith (ToolComponent.HasGuid guid) component) :
      Selects tool reference (some component)
  /-- Without a component of the globally unique name, a name selects the first that has it. -/
  | byName {name : String} {component : ToolComponent}
      (unset : Sentinel.value? (reference.get ToolComponentReference.index) = none)
      (unknown : ∀ guid, reference.get ToolComponentReference.guid = some guid →
        tool.NoneWith (ToolComponent.HasGuid guid))
      (given : reference.get ToolComponentReference.name = some name)
      (first : tool.FirstWith (ToolComponent.HasName name) component) :
      Selects tool reference (some component)
  /-- A reference that names nothing selects the driver. -/
  | driver (unset : Sentinel.value? (reference.get ToolComponentReference.index) = none)
      (noGuid : reference.get ToolComponentReference.guid = none)
      (noName : reference.get ToolComponentReference.name = none) :
      Selects tool reference (some (tool.get Tool.driver))
  /-- A reference that names something, and no component by either name, selects nothing. -/
  | nothing (unset : Sentinel.value? (reference.get ToolComponentReference.index) = none)
      (named : reference.get ToolComponentReference.guid ≠ none ∨
        reference.get ToolComponentReference.name ≠ none)
      (unknownGuid : ∀ guid, reference.get ToolComponentReference.guid = some guid →
        tool.NoneWith (ToolComponent.HasGuid guid))
      (unknownName : ∀ name, reference.get ToolComponentReference.name = some name →
        tool.NoneWith (ToolComponent.HasName name)) :
      Selects tool reference none

variable {tool : Tool} {reference : ToolComponentReference} {component : ToolComponent}
  {guid name : String}

/-- The components of a tool are what its slots hold, in order. -/
theorem components_eq_populated (tool : Tool) :
    tool.components = NodeList.populated tool.componentSlots :=
  rfl

section Search

variable {test : ToolComponent → Bool} {property : ToolComponent → Prop}

/-- A search through the components of a tool finds the first that has the property tested. -/
theorem find?_components_eq_some_iff (tests : ∀ c, test c = true ↔ property c) :
    tool.components.find? test = some component ↔ tool.FirstWith property component := by
  have refuses (c : ToolComponent) : test c = false ↔ ¬ property c := by
    rw [← tests, Bool.not_eq_true]
  rw [components_eq_populated, NodeList.find?_populated_eq_some_iff, FirstWith, tests]
  simp only [refuses]

/-- A search through the components of a tool finds nothing exactly if none has the property
tested. -/
theorem find?_components_eq_none_iff (tests : ∀ c, test c = true ↔ property c) :
    tool.components.find? test = none ↔ tool.NoneWith property := by
  rw [components_eq_populated, List.find?_eq_none]
  exact forall_congr' fun c => imp_congr NodeList.mem_populated (not_congr (tests c))

end Search

/-- The test for a globally unique name. -/
theorem any_sameIgnoringCase_iff (guid : String) (c : ToolComponent) :
    (c.get ToolComponent.guid).any (sameIgnoringCase guid) = true ↔ c.HasGuid guid := by
  rw [Option.any_eq_true]
  exact exists_congr fun own => and_congr_right fun _ => sameIgnoringCase_iff

/-- A search for a globally unique name finds the first component that has it. -/
theorem componentOfGuid?_eq_some_iff :
    tool.componentOfGuid? guid = some component ↔
      tool.FirstWith (ToolComponent.HasGuid guid) component :=
  find?_components_eq_some_iff (any_sameIgnoringCase_iff guid)

/-- The globally unique name, if there is one, leads to nothing exactly if no component has it. -/
theorem bind_componentOfGuid?_eq_none_iff {guid : Option String} :
    guid.bind tool.componentOfGuid? = none ↔
      ∀ given, guid = some given → tool.NoneWith (ToolComponent.HasGuid given) := by
  rw [Option.bind_eq_none_iff]
  exact forall₂_congr fun given _ =>
    find?_components_eq_none_iff (any_sameIgnoringCase_iff given)

/-- A search for a name finds the first component that has it. -/
theorem componentOfName?_eq_some_iff :
    tool.componentOfName? name = some component ↔
      tool.FirstWith (ToolComponent.HasName name) component :=
  find?_components_eq_some_iff fun _ => beq_iff_eq

/-- The name, if there is one, leads to nothing exactly if no component has it. -/
theorem bind_componentOfName?_eq_none_iff {name : Option String} :
    name.bind tool.componentOfName? = none ↔
      ∀ given, name = some given → tool.NoneWith (ToolComponent.HasName given) := by
  rw [Option.bind_eq_none_iff]
  exact forall₂_congr fun given _ => find?_components_eq_none_iff fun _ => beq_iff_eq

/-- An index leads to what its slot for an extension holds. -/
theorem component?_of_index {i : Nat}
    (index : Sentinel.value? (reference.get ToolComponentReference.index) = some i) :
    tool.component? (some reference) = NodeList.at? tool.extensionSlots i := by
  rw [component?, index, extensionSlots]
  cases tool.get extensions <;> rfl

/-- Without an index the names decide. -/
theorem component?_of_unset
    (unset : Sentinel.value? (reference.get ToolComponentReference.index) = none) :
    tool.component? (some reference) =
      tool.componentNamed? (reference.get ToolComponentReference.guid)
        (reference.get ToolComponentReference.name) := by
  rw [component?, unset]

/-- If there is a name, the globally unique one comes before the plain one. -/
theorem componentNamed?_of_named {guid name : Option String} (named : guid ≠ none ∨ name ≠ none) :
    tool.componentNamed? guid name =
      (guid.bind tool.componentOfGuid?).or (name.bind tool.componentOfName?) := by
  match guid, name, named with
  | none, some _, _ => rfl
  | some _, _, _ => rfl

/-- What a tool gives for a reference is selected by the reference. -/
theorem selects_component? (tool : Tool) (reference : ToolComponentReference) :
    tool.Selects reference (tool.component? (some reference)) := by
  cases index : Sentinel.value? (reference.get ToolComponentReference.index) with
  | some i =>
      rw [component?_of_index index]
      cases slot : NodeList.at? tool.extensionSlots i with
      | some component => exact .extension index (NodeList.at?_eq_some_iff.mp slot)
      | none =>
          refine .noExtension index fun component held => ?_
          cases slot.symm.trans (NodeList.at?_eq_some_iff.mpr held)
  | none =>
      rw [component?_of_unset index]
      by_cases named : reference.get ToolComponentReference.guid ≠ none ∨
          reference.get ToolComponentReference.name ≠ none
      · rw [componentNamed?_of_named named]
        cases byGuid : (reference.get ToolComponentReference.guid).bind tool.componentOfGuid? with
        | some component =>
            obtain ⟨guid, given, found⟩ := Option.bind_eq_some_iff.mp byGuid
            exact .byGuid index given (componentOfGuid?_eq_some_iff.mp found)
        | none =>
            have unknown := bind_componentOfGuid?_eq_none_iff.mp byGuid
            cases byName :
                (reference.get ToolComponentReference.name).bind tool.componentOfName? with
            | some component =>
                obtain ⟨name, given, found⟩ := Option.bind_eq_some_iff.mp byName
                exact .byName index unknown given (componentOfName?_eq_some_iff.mp found)
            | none =>
              exact .nothing index named unknown (bind_componentOfName?_eq_none_iff.mp byName)
      · rw [not_or, not_not, not_not] at named
        rw [named.1, named.2]
        exact .driver index named.1 named.2

/-- What a reference selects is what a tool gives for it. -/
theorem component?_eq_of_selects {outcome : Option ToolComponent}
    (selects : tool.Selects reference outcome) : tool.component? (some reference) = outcome := by
  cases selects with
  | extension index slot =>
      rw [component?_of_index index]
      exact NodeList.at?_eq_some_iff.mpr slot
  | noExtension index slot =>
      rw [component?_of_index index, Option.eq_none_iff_forall_ne_some]
      exact fun component held => slot component (NodeList.at?_eq_some_iff.mp held)
  | byGuid unset given first =>
      rw [component?_of_unset unset, componentNamed?_of_named (.inl (by simp [given])), given,
        Option.bind_some, componentOfGuid?_eq_some_iff.mpr first, Option.some_or]
  | byName unset unknown given first =>
      rw [component?_of_unset unset, componentNamed?_of_named (.inr (by simp [given])),
        bind_componentOfGuid?_eq_none_iff.mpr unknown, Option.none_or, given, Option.bind_some,
        componentOfName?_eq_some_iff.mpr first]
  | driver unset noGuid noName =>
      rw [component?_of_unset unset, noGuid, noName]
      rfl
  | nothing unset named unknownGuid unknownName =>
      rw [component?_of_unset unset, componentNamed?_of_named named,
        bind_componentOfGuid?_eq_none_iff.mpr unknownGuid,
        bind_componentOfName?_eq_none_iff.mpr unknownName, Option.none_or]

/-- A tool gives for a reference what the reference selects: by index an extension, else by globally
unique name the first component of it, else by name the first component of that, else the driver if
the reference has neither name. -/
theorem component?_eq_iff_selects (tool : Tool) (reference : ToolComponentReference)
    (outcome : Option ToolComponent) :
    tool.component? (some reference) = outcome ↔ tool.Selects reference outcome := by
  constructor
  · rintro rfl
    exact tool.selects_component? reference
  · exact component?_eq_of_selects

end Tool
end Sarif
