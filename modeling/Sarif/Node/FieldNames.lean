import Sarif.Node.Basic

/-!
# Names of fields

The kinds and fields that the operations of this library refer to, by name. A field name is a
place in the fields of its kind, so `Node.get` and `Node.set` know its type; the index is
checked against the name and the type.
-/

namespace Sarif

/-- The place of a field of a kind, by name and type. -/
abbrev FieldOf (k : Kind) (name : String) (type : FieldType) := Place k.fields ⟨name, type⟩

/-- A log: the root of everything. -/
abbrev SarifLog := Node .sarifLog

namespace SarifLog

/-- The URI of the schema that the log follows. -/
def schemaUri : FieldOf .sarifLog "$schema" (.optional .text) := .ofIndex 0 rfl

/-- The runs of the log. -/
def runs : FieldOf .sarifLog "runs" (.optional (.nodes .run)) := .ofIndex 2 rfl

end SarifLog

/-- A file, or something like one, that an analysis is about. -/
abbrev Artifact := Node .artifact

namespace Artifact

/-- Where the artifact is. -/
def location : FieldOf .artifact "location" (.optional (.node .artifactLocation)) :=
  .ofIndex 1 rfl

/-- The parts that the artifact plays in the analysis. -/
def roles : FieldOf .artifact "roles" (.optional (.choices .artifactRole)) := .ofIndex 5 rfl

end Artifact

/-- The content of an artifact, or of a part of one. -/
abbrev ArtifactContent := Node .artifactContent

namespace ArtifactContent

/-- The content of a text artifact. -/
def text : FieldOf .artifactContent "text" (.optional .text) := .ofIndex 0 rfl

end ArtifactContent

/-- Where an artifact is. -/
abbrev ArtifactLocation := Node .artifactLocation

namespace ArtifactLocation

/-- The URI of the artifact, absolute or relative to the base. -/
def uri : FieldOf .artifactLocation "uri" (.optional .text) := .ofIndex 0 rfl

/-- The name of the base that a relative URI is relative to. -/
def uriBaseId : FieldOf .artifactLocation "uriBaseId" (.optional .text) := .ofIndex 1 rfl

/-- The index of the artifact in the table of its run. -/
def index : FieldOf .artifactLocation "index" (.required .sentinel) := .ofIndex 2 rfl

end ArtifactLocation

/-- A flow of execution through one or more threads. -/
abbrev CodeFlow := Node .codeFlow

namespace CodeFlow

/-- The threads of execution of the flow. -/
def threadFlows : FieldOf .codeFlow "threadFlows" (.required (.nodes .threadFlow)) :=
  .ofIndex 1 rfl

end CodeFlow

/-- A directed edge of a graph. -/
abbrev Edge := Node .edge

namespace Edge

/-- What tells the edge from the others of its graph. -/
def id : FieldOf .edge "id" (.required .text) := .ofIndex 0 rfl

/-- The id of the node at which the edge starts. -/
def sourceNodeId : FieldOf .edge "sourceNodeId" (.required .text) := .ofIndex 2 rfl

/-- The id of the node at which the edge ends. -/
def targetNodeId : FieldOf .edge "targetNodeId" (.required .text) := .ofIndex 3 rfl

end Edge

/-- A graph. -/
abbrev Graph := Node .graph

namespace Graph

/-- The outermost nodes of the graph. -/
def nodes : FieldOf .graph "nodes" (.optional (.nodes .node)) := .ofIndex 1 rfl

end Graph

/-- A run of a tool from its command line. -/
abbrev Invocation := Node .invocation

namespace Invocation

/-- The conditions that the tool met during the analysis. -/
def toolExecutionNotifications :
    FieldOf .invocation "toolExecutionNotifications" (.optional (.nodes .notification)) :=
  .ofIndex 8 rfl

/-- The conditions that the tool met in its configuration. -/
def toolConfigurationNotifications :
    FieldOf .invocation "toolConfigurationNotifications" (.optional (.nodes .notification)) :=
  .ofIndex 9 rfl

/-- Whether the tool completed successfully. -/
def executionSuccessful : FieldOf .invocation "executionSuccessful" (.required .boolean) :=
  .ofIndex 14 rfl

end Invocation

/-- A place in an artifact or in a program. -/
abbrev Location := Node .location

namespace Location

/-- What tells the location from the others of its result. -/
def id : FieldOf .location "id" (.required .sentinel) := .ofIndex 0 rfl

/-- The artifact and the region. -/
def physicalLocation :
    FieldOf .location "physicalLocation" (.optional (.node .physicalLocation)) :=
  .ofIndex 1 rfl

end Location

/-- A message to the reader of the log. -/
abbrev Message := Node .message

namespace Message

/-- The message in plain text. -/
def text : FieldOf .message "text" (.optional .text) := .ofIndex 0 rfl

/-- The message in Markdown. -/
def markdown : FieldOf .message "markdown" (.optional .text) := .ofIndex 1 rfl

/-- The name under which the rule keeps the message. -/
def id : FieldOf .message "id" (.optional .text) := .ofIndex 2 rfl

/-- What is put into the placeholders of the message. -/
def arguments : FieldOf .message "arguments" (.optional .texts) := .ofIndex 3 rfl

end Message

/-- A message kept in several formats. -/
abbrev MultiformatMessageString := Node .multiformatMessageString

namespace MultiformatMessageString

/-- The message, or its template, in plain text. -/
def text : FieldOf .multiformatMessageString "text" (.required .text) := .ofIndex 0 rfl

end MultiformatMessageString

/-- A node of a graph. -/
abbrev GraphNode := Node .node

namespace GraphNode

/-- What tells the node from the others of its graph. -/
def id : FieldOf .node "id" (.required .text) := .ofIndex 0 rfl

/-- The nodes nested in the node. -/
def children : FieldOf .node "children" (.optional (.nodes .node)) := .ofIndex 3 rfl

end GraphNode

/-- A condition that a tool met while it ran. -/
abbrev Notification := Node .notification

namespace Notification

/-- What the notification says. -/
def message : FieldOf .notification "message" (.required (.node .message)) := .ofIndex 1 rfl

/-- How severe the condition is. -/
def level : FieldOf .notification "level" (.optional (.choice .failureLevel)) := .ofIndex 2 rfl

end Notification

/-- A place in an artifact. -/
abbrev PhysicalLocation := Node .physicalLocation

namespace PhysicalLocation

/-- Where the artifact is. -/
def artifactLocation :
    FieldOf .physicalLocation "artifactLocation" (.optional (.node .artifactLocation)) :=
  .ofIndex 1 rfl

/-- The part of the artifact. -/
def region : FieldOf .physicalLocation "region" (.optional (.node .region)) := .ofIndex 2 rfl

end PhysicalLocation

/-- A part of an artifact. -/
abbrev Region := Node .region

namespace Region

/-- The line of the first character. -/
def startLine : FieldOf .region "startLine" (.optional .integer) := .ofIndex 0 rfl

/-- The column of the first character. -/
def startColumn : FieldOf .region "startColumn" (.optional .integer) := .ofIndex 1 rfl

/-- The line of the last character. -/
def endLine : FieldOf .region "endLine" (.optional .integer) := .ofIndex 2 rfl

/-- The column after the last character. -/
def endColumn : FieldOf .region "endColumn" (.optional .integer) := .ofIndex 3 rfl

/-- The offset of the first character. -/
def charOffset : FieldOf .region "charOffset" (.required .sentinel) := .ofIndex 4 rfl

/-- The offset of the first byte. -/
def byteOffset : FieldOf .region "byteOffset" (.required .sentinel) := .ofIndex 6 rfl

end Region

/-- The replacement of a region. -/
abbrev Replacement := Node .replacement

namespace Replacement

/-- The region to delete. -/
def deletedRegion : FieldOf .replacement "deletedRegion" (.required (.node .region)) :=
  .ofIndex 0 rfl

/-- What to put in its place. -/
def insertedContent :
    FieldOf .replacement "insertedContent" (.optional (.node .artifactContent)) :=
  .ofIndex 1 rfl

end Replacement

/-- How the reports of a descriptor are configured. -/
abbrev ReportingConfiguration := Node .reportingConfiguration

namespace ReportingConfiguration

/-- Whether reports may be produced. -/
def enabled : FieldOf .reportingConfiguration "enabled" (.optional .boolean) := .ofIndex 0 rfl

/-- How severe the reports are. -/
def level : FieldOf .reportingConfiguration "level" (.optional (.choice .failureLevel)) :=
  .ofIndex 1 rfl

/-- The priority of the reports. -/
def rank : FieldOf .reportingConfiguration "rank" (.optional .number) := .ofIndex 2 rfl

end ReportingConfiguration

/-- A rule, or another kind of report that a tool produces. -/
abbrev ReportingDescriptor := Node .reportingDescriptor

namespace ReportingDescriptor

/-- The stable name of the descriptor. -/
def id : FieldOf .reportingDescriptor "id" (.required .text) := .ofIndex 0 rfl

/-- The messages of the descriptor, by name. -/
def messageStrings :
    FieldOf .reportingDescriptor "messageStrings"
      (.optional (.nodeMap .multiformatMessageString)) :=
  .ofIndex 8 rfl

/-- How reports are configured when nothing else is said. -/
def defaultConfiguration :
    FieldOf .reportingDescriptor "defaultConfiguration"
      (.optional (.node .reportingConfiguration)) :=
  .ofIndex 9 rfl

end ReportingDescriptor

/-- A reference to a descriptor. -/
abbrev ReportingDescriptorReference := Node .reportingDescriptorReference

namespace ReportingDescriptorReference

/-- The id of the descriptor. -/
def id : FieldOf .reportingDescriptorReference "id" (.optional .text) := .ofIndex 0 rfl

/-- The index of the descriptor in its component. -/
def index : FieldOf .reportingDescriptorReference "index" (.required .sentinel) := .ofIndex 1 rfl

/-- The component that the descriptor belongs to. -/
def toolComponent :
    FieldOf .reportingDescriptorReference "toolComponent"
      (.optional (.node .toolComponentReference)) :=
  .ofIndex 3 rfl

end ReportingDescriptorReference

/-- A result of an analysis. -/
abbrev Result := Node .result

namespace Result

/-- The id of the rule that the result is about. -/
def ruleId : FieldOf .result "ruleId" (.optional .text) := .ofIndex 0 rfl

/-- The index of that rule in its component. -/
def ruleIndex : FieldOf .result "ruleIndex" (.required .sentinel) := .ofIndex 1 rfl

/-- A reference to that rule. -/
def rule : FieldOf .result "rule" (.optional (.node .reportingDescriptorReference)) :=
  .ofIndex 2 rfl

/-- What the result says about the rule. -/
def kind : FieldOf .result "kind" (.optional (.choice .resultKind)) := .ofIndex 3 rfl

/-- How severe the result is. -/
def level : FieldOf .result "level" (.optional (.choice .failureLevel)) := .ofIndex 4 rfl

/-- What the result says. -/
def message : FieldOf .result "message" (.required (.node .message)) := .ofIndex 5 rfl

/-- Where the result was found. -/
def locations : FieldOf .result "locations" (.optional (.nodes .location)) := .ofIndex 7 rfl

/-- Strings that tell the result from others of the run, one for each way of making them. -/
def partialFingerprints : FieldOf .result "partialFingerprints" (.optional .textMap) :=
  .ofIndex 11 rfl

/-- The suppressions of the result. -/
def suppressions : FieldOf .result "suppressions" (.optional (.nodes .suppression)) :=
  .ofIndex 18 rfl

/-- How important the result is. -/
def rank : FieldOf .result "rank" (.optional .number) := .ofIndex 20 rfl

/-- When and how the result was found. -/
def provenance : FieldOf .result "provenance" (.optional (.node .resultProvenance)) :=
  .ofIndex 24 rfl

end Result

/-- When and how a result was found. -/
abbrev ResultProvenance := Node .resultProvenance

namespace ResultProvenance

/-- The time at which the result was found first. -/
def firstDetectionTimeUtc :
    FieldOf .resultProvenance "firstDetectionTimeUtc" (.optional .dateTime) := .ofIndex 0 rfl

end ResultProvenance

/-- A single run of a tool, with what it reports. -/
abbrev Run := Node .run

namespace Run

/-- The tool that was run. -/
def tool : FieldOf .run "tool" (.required (.node .tool)) := .ofIndex 0 rfl

/-- The table of artifacts of the run. -/
def artifacts : FieldOf .run "artifacts" (.optional (.nodes .artifact)) := .ofIndex 6 rfl

/-- The results of the run. -/
def results : FieldOf .run "results" (.optional (.nodes .result)) := .ofIndex 9 rfl

/-- The language of the messages of the run. -/
def language : FieldOf .run "language" (.optional .text) := .ofIndex 3 rfl

end Run

/-- A request to leave a result aside. -/
abbrev Suppression := Node .suppression

namespace Suppression

/-- How far the review of the suppression has come. -/
def status : FieldOf .suppression "status" (.optional (.choice .suppressionStatus)) :=
  .ofIndex 2 rfl

end Suppression

/-- A thread of execution. -/
abbrev ThreadFlow := Node .threadFlow

namespace ThreadFlow

/-- The steps of the thread, in time. -/
def locations : FieldOf .threadFlow "locations" (.required (.nodes .threadFlowLocation)) :=
  .ofIndex 4 rfl

end ThreadFlow

/-- A step of a thread. -/
abbrev ThreadFlowLocation := Node .threadFlowLocation

namespace ThreadFlowLocation

/-- How much the step matters. -/
def importance : FieldOf .threadFlowLocation "importance" (.optional (.choice .importance)) :=
  .ofIndex 10 rfl

end ThreadFlowLocation

/-- A tool with its components. -/
abbrev Tool := Node .tool

namespace Tool

/-- The main component of the tool. -/
def driver : FieldOf .tool "driver" (.required (.node .toolComponent)) := .ofIndex 0 rfl

/-- The further components of the tool. -/
def extensions : FieldOf .tool "extensions" (.optional (.nodes .toolComponent)) := .ofIndex 1 rfl

end Tool

/-- A component of a tool: the driver or an extension. -/
abbrev ToolComponent := Node .toolComponent

namespace ToolComponent

/-- A globally unique name of the component. -/
def guid : FieldOf .toolComponent "guid" (.optional .text) := .ofIndex 0 rfl

/-- The name of the component. -/
def name : FieldOf .toolComponent "name" (.required .text) := .ofIndex 1 rfl

/-- The language of the messages of the component. -/
def language : FieldOf .toolComponent "language" (.optional .text) := .ofIndex 19 rfl

/-- The rules of the component. -/
def rules : FieldOf .toolComponent "rules" (.optional (.nodes .reportingDescriptor)) :=
  .ofIndex 16 rfl

end ToolComponent

/-- A reference to a component. -/
abbrev ToolComponentReference := Node .toolComponentReference

namespace ToolComponentReference

/-- The name of the component. -/
def name : FieldOf .toolComponentReference "name" (.optional .text) := .ofIndex 0 rfl

/-- The index of the component among the extensions. -/
def index : FieldOf .toolComponentReference "index" (.required .sentinel) := .ofIndex 1 rfl

/-- The globally unique name of the component. -/
def guid : FieldOf .toolComponentReference "guid" (.optional .text) := .ofIndex 2 rfl

end ToolComponentReference

/-- What is needed to fetch a revision. -/
abbrev VersionControlDetails := Node .versionControlDetails

namespace VersionControlDetails

/-- The URI of the repository. -/
def repositoryUri : FieldOf .versionControlDetails "repositoryUri" (.required .text) :=
  .ofIndex 0 rfl

end VersionControlDetails

/-- A response of a web server. -/
abbrev WebResponse := Node .webResponse

namespace WebResponse

/-- Whether no response came from the server. -/
def noResponseReceived : FieldOf .webResponse "noResponseReceived" (.optional .boolean) :=
  .ofIndex 7 rfl

end WebResponse

end Sarif
