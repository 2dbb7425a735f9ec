import Sarif.Node.FieldNames
import Sarif.NodeList

/-!
# Values in effect

Many fields may be absent and then mean a definite value. This module says which, and answers
the simple questions about nodes that depend on one or two fields: how a region is given, which
artifact a location is in, which notifications an invocation has.
-/

namespace Sarif

/-- The language of messages when nothing is said. -/
def defaultLanguage : String := "en-US"

namespace ReportingConfiguration

/-- Reports are enabled unless they are said not to be. -/
def enabledInEffect (c : ReportingConfiguration) : Bool :=
  (c.get enabled).getD true

/-- Reports are warnings unless another level is given. -/
def levelInEffect (c : ReportingConfiguration) : FailureLevel :=
  (c.get level).getD .warning

/-- Reports have the rank `-1.0` unless another is given. -/
def rankInEffect (c : ReportingConfiguration) : Binary64 :=
  (c.get rank).getD (Number.nearestFloat (-1))

end ReportingConfiguration

namespace Notification

/-- A notification is a warning unless another level is given. -/
def levelInEffect (n : Notification) : FailureLevel :=
  (n.get level).getD .warning

end Notification

namespace ThreadFlowLocation

/-- A step is important unless it is said to be otherwise. -/
def importanceInEffect (l : ThreadFlowLocation) : Importance :=
  (l.get importance).getD .important

end ThreadFlowLocation

namespace WebResponse

/-- Whether a response was received, as it is unless it is said not to be. -/
def received (r : WebResponse) : Bool :=
  !(r.get noResponseReceived).getD false

end WebResponse

namespace Run

/-- The language of the messages of a run. -/
def languageInEffect (run : Run) : String :=
  (run.get language).getD defaultLanguage

/-- The results of a run, without empty slots. -/
def resultList (run : Run) : List Result :=
  NodeList.populated ((run.get results).getD [])

end Run

namespace ToolComponent

/-- The language of the messages of a component. -/
def languageInEffect (component : ToolComponent) : String :=
  (component.get language).getD defaultLanguage

end ToolComponent

namespace SarifLog

/-- The runs of a log, without empty slots. -/
def runList (log : SarifLog) : List Run :=
  NodeList.populated ((log.get runs).getD [])

end SarifLog

namespace Invocation

/-- The notifications of an invocation, those of the execution before those of the
configuration, without empty slots. -/
def notifications (i : Invocation) : List Notification :=
  NodeList.populated ((i.get toolExecutionNotifications).getD []) ++
    NodeList.populated ((i.get toolConfigurationNotifications).getD [])

end Invocation

namespace Artifact

/-- Whether an artifact plays a part. -/
def hasRole (artifact : Artifact) (role : ArtifactRole) : Bool :=
  ((artifact.get roles).getD []).contains role

end Artifact

namespace Location

/-- The artifact that a location is in, if it says so. -/
def artifactLocation? (location : Location) : Option ArtifactLocation :=
  (location.get physicalLocation).bind (Node.get · PhysicalLocation.artifactLocation)

end Location

namespace Region

/-- Whether a region is given by lines and columns. -/
def isLineColumnBased (region : Region) : Bool :=
  (region.get startLine).isSome

/-- Whether a region is given by a character offset. -/
def isOffsetBased (region : Region) : Bool :=
  !Sentinel.isUnset (region.get charOffset)

/-- Whether a region is given by a byte offset and in no other way. -/
def isBinary (region : Region) : Bool :=
  !Sentinel.isUnset (region.get byteOffset) && !region.isLineColumnBased &&
    !region.isOffsetBased

end Region
end Sarif
