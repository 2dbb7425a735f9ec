import Sarif.ArtifactTable

/-!
# Building nodes

Nodes made from their most important parts; every other field has its default.
-/

namespace Sarif

namespace Message

/-- A message in plain text. -/
def ofText (text : String) : Message :=
  (Node.default .message).set Message.text (some text)

/-- A message that the rule keeps under a name, with arguments for its placeholders. -/
def ofId (id : String) (arguments : List String) : Message :=
  ((Node.default .message).set Message.id (some id)).set Message.arguments (some arguments)

end Message

namespace MultiformatMessageString

/-- A message string in plain text. -/
def ofText (text : String) : MultiformatMessageString :=
  (Node.default .multiformatMessageString).set MultiformatMessageString.text text

end MultiformatMessageString

namespace ArtifactLocation

/-- A location with a URI. -/
def ofUri (uri : String) : ArtifactLocation :=
  (Node.default .artifactLocation).set ArtifactLocation.uri (some uri)

/-- A location with a URI relative to a base. -/
def ofUriAndBase (uri base : String) : ArtifactLocation :=
  (ofUri uri).set ArtifactLocation.uriBaseId (some base)

end ArtifactLocation

namespace ArtifactContent

/-- Content in plain text. -/
def ofText (text : String) : ArtifactContent :=
  (Node.default .artifactContent).set ArtifactContent.text (some text)

end ArtifactContent

namespace Location

/-- A location in an artifact, and in a region of it if one is given. -/
def physical (artifact : ArtifactLocation) (region : Option Region) : Location :=
  let place := ((Node.default .physicalLocation).set PhysicalLocation.artifactLocation
    (some artifact)).set PhysicalLocation.region region
  (Node.default .location).set Location.physicalLocation (some place)

end Location

namespace Region

/-- The region between two places given by line and column. -/
def ofLines (startLine startColumn endLine endColumn : Int64) : Region :=
  ((((Node.default .region).set Region.startLine (some startLine)).set
    Region.startColumn (some startColumn)).set
    Region.endLine (some endLine)).set
    Region.endColumn (some endColumn)

end Region

namespace Replacement

/-- A replacement of a region by text, or by nothing. -/
def ofRegion (deleted : Region) (inserted : Option String) : Replacement :=
  ((Node.default .replacement).set Replacement.deletedRegion deleted).set
    Replacement.insertedContent (inserted.map ArtifactContent.ofText)

end Replacement

namespace Result

/-- A result with a message. -/
def ofMessage (message : Message) : Result :=
  (Node.default .result).set Result.message message

/-- A result about a rule, with a message. -/
def forRule (ruleId : String) (message : Message) : Result :=
  (ofMessage message).set Result.ruleId (some ruleId)

end Result

namespace ToolComponent

/-- A component with a name. -/
def named (name : String) : ToolComponent :=
  (Node.default .toolComponent).set ToolComponent.name name

end ToolComponent

namespace Tool

/-- A tool whose driver has a name. -/
def named (name : String) : Tool :=
  (Node.default .tool).set Tool.driver (ToolComponent.named name)

end Tool

namespace Run

/-- A run of a tool with nothing to report. -/
def ofTool (tool : Tool) : Run :=
  (Node.default .run).set Run.tool tool

end Run

namespace ReportingDescriptor

/-- A descriptor with an id. -/
def ofId (id : String) : ReportingDescriptor :=
  (Node.default .reportingDescriptor).set ReportingDescriptor.id id

end ReportingDescriptor

namespace Invocation

/-- An invocation with its outcome. -/
def ofOutcome (successful : Bool) : Invocation :=
  (Node.default .invocation).set Invocation.executionSuccessful successful

end Invocation

namespace Notification

/-- A notification with a message. -/
def ofMessage (message : Message) : Notification :=
  (Node.default .notification).set Notification.message message

end Notification

namespace CodeFlow

/-- A flow of one thread through the given steps. -/
def single (steps : List ThreadFlowLocation) : CodeFlow :=
  let thread := (Node.default .threadFlow).set ThreadFlow.locations (NodeList.ofFull steps)
  (Node.default .codeFlow).set CodeFlow.threadFlows [some thread]

end CodeFlow

namespace SarifLog

/-- The URI of the schema of this version of the format. -/
def schema : String :=
  "https://docs.oasis-open.org/sarif/sarif/v2.1.0/os/schemas/sarif-schema-2.1.0.json"

/-- A log of the given runs that names its schema. -/
def ofRuns (runs : List Run) : SarifLog :=
  ((Node.default .sarifLog).set SarifLog.schemaUri (some schema)).set SarifLog.runs
    (some (NodeList.ofFull runs))

end SarifLog

namespace GraphNode

/-- A node of a graph with an id. -/
def ofId (id : String) : GraphNode :=
  (Node.default .node).set GraphNode.id id

end GraphNode

namespace Edge

/-- An edge with an id between two nodes. -/
def between (id source target : String) : Edge :=
  (((Node.default .edge).set Edge.id id).set Edge.sourceNodeId source).set
    Edge.targetNodeId target

end Edge

namespace VersionControlDetails

/-- Details with the URI of the repository. -/
def ofRepository (uri : String) : VersionControlDetails :=
  (Node.default .versionControlDetails).set VersionControlDetails.repositoryUri uri

end VersionControlDetails
end Sarif
