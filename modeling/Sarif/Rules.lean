import Sarif.Effective
import Sarif.Template

/-!
# Rules and results

A tool has a driver and extensions; each of these components has rules. A result refers to its
rule through a component, by index or by id, and takes from the rule what it leaves out: its
level, and the template of its message.
-/

namespace Sarif

namespace Tool

/-- The components of a tool: the driver, then the extensions without empty slots. -/
def components (tool : Tool) : List ToolComponent :=
  tool.get driver :: NodeList.populated ((tool.get extensions).getD [])

/-- Whether two strings agree up to the case of ASCII letters. -/
def sameIgnoringCase (s t : String) : Bool :=
  s.toList.map Char.toLower == t.toList.map Char.toLower

/-- The first component with a globally unique name. -/
def componentOfGuid? (tool : Tool) (guid : String) : Option ToolComponent :=
  tool.components.find? fun c => (c.get ToolComponent.guid).any (sameIgnoringCase guid)

/-- The first component with a name. -/
def componentOfName? (tool : Tool) (name : String) : Option ToolComponent :=
  tool.components.find? fun c => c.get ToolComponent.name == name

/-- The component that a reference with no index leads to: by its globally unique name, then by
its name; the driver if it has neither. -/
def componentNamed? (tool : Tool) : (guid name : Option String) → Option ToolComponent
  | none, none => some (tool.get driver)
  | guid, name => (guid.bind tool.componentOfGuid?).or (name.bind tool.componentOfName?)

/-- The component that a reference leads to. An index selects an extension whatever the names
say; no reference leads to the driver. -/
def component? (tool : Tool) : Option ToolComponentReference → Option ToolComponent
  | none => some (tool.get driver)
  | some reference =>
    match Sentinel.value? (reference.get ToolComponentReference.index) with
    | some i => (tool.get extensions).bind (NodeList.at? · i)
    | none =>
      tool.componentNamed? (reference.get ToolComponentReference.guid)
        (reference.get ToolComponentReference.name)

end Tool

namespace ToolComponent

/-- The rule at an index. -/
def rule? (component : ToolComponent) (index : Nat) : Option ReportingDescriptor :=
  (component.get rules).bind (NodeList.at? · index)

/-- The first rule with an id. -/
def ruleOfId? (component : ToolComponent) (id : String) : Option ReportingDescriptor :=
  (component.get rules).bind fun list =>
    (NodeList.populated list).find? fun rule => rule.get ReportingDescriptor.id == id

end ToolComponent

namespace ReportingDescriptor

/-- The message kept under a name. -/
def messageString? (rule : ReportingDescriptor) (name : String) :
    Option MultiformatMessageString :=
  (rule.get messageStrings).bind (Dict.get? · name)

end ReportingDescriptor

namespace Message

/-- A template filled with the arguments of the message. -/
def format (message : Message) (template : String) : String :=
  Template.fill ((message.get arguments).getD []) template

end Message

namespace Result

/-- A result says that its rule failed unless it says otherwise. -/
def kindInEffect (result : Result) : ResultKind :=
  (result.get kind).getD .fail

/-- The level of a result: its own; for a failure that of the rule, or else a warning; none for
everything else. -/
def levelInEffect (result : Result) (rule : Option ReportingDescriptor) : FailureLevel :=
  match result.get level with
  | some level => level
  | none =>
    if result.kindInEffect = .fail then
      match rule.bind (Node.get · ReportingDescriptor.defaultConfiguration) with
      | some configuration => ReportingConfiguration.levelInEffect configuration
      | none => .warning
    else .none

/-- The id of the rule: the one that the result gives, or else that of its reference. -/
def ruleIdInEffect? (result : Result) : Option String :=
  (result.get ruleId).or
    ((result.get rule).bind (Node.get · ReportingDescriptorReference.id))

/-- The index of the rule: the one that the result gives, or else that of its reference. -/
def ruleIndexInEffect? (result : Result) : Option Nat :=
  (Sentinel.value? (result.get ruleIndex)).or
    ((result.get rule).bind fun r => Sentinel.value? (r.get ReportingDescriptorReference.index))

/-- What stands before the first slash of an id, if there is one. -/
def baseId? (id : String) : Option String :=
  if id.toList.contains '/' then some (String.ofList (id.toList.takeWhile (· != '/'))) else none

/-- The component that the rule of a result belongs to. -/
def component? (result : Result) (run : Run) : Option ToolComponent :=
  Tool.component? (run.get Run.tool)
    ((result.get rule).bind (Node.get · ReportingDescriptorReference.toolComponent))

/-- The rule of a result. An index decides alone; otherwise the id does, or, if there is no rule
of that id, what stands before its first slash. -/
def rule? (result : Result) (run : Run) : Option ReportingDescriptor := do
  let component ← result.component? run
  match result.ruleIndexInEffect? with
  | some i => component.rule? i
  | none =>
    let id ← result.ruleIdInEffect?
    (component.ruleOfId? id).or ((baseId? id).bind component.ruleOfId?)

/-- The text of the message of a result: its own text, or else the one that the rule keeps under
the id of the message, with placeholders filled. -/
def messageText? (result : Result) (rule : Option ReportingDescriptor) : Option String :=
  let message : Message := result.get Result.message
  match message.get Message.text with
  | some text => some (message.format text)
  | none => do
    let rule ← rule
    let id ← message.get Message.id
    let template ← rule.messageString? id
    return message.format (template.get MultiformatMessageString.text)

/-- Whether a suppression applies: it does unless it is under review or was rejected. -/
def appliesSuppression (s : Suppression) : Bool :=
  match s.get Suppression.status with
  | some .underReview => false
  | some .rejected => false
  | _ => true

/-- Whether any suppression of a result applies. -/
def isSuppressed (result : Result) : Bool :=
  (NodeList.populated ((result.get suppressions).getD [])).any appliesSuppression

end Result
end Sarif
