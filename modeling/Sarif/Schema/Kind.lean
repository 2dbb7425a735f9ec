/-!
# Node kinds

A log is a tree of nodes, and every node is of one of fifty-two kinds. The kinds are listed in
their canonical order, the log itself first and the rest by name; that order is also the order
in which kinds compare.
-/

namespace Sarif

/-- The kind of a node. -/
inductive Kind where
  | sarifLog
  | address
  | artifact
  | artifactChange
  | artifactContent
  | artifactLocation
  | attachment
  | codeFlow
  | configurationOverride
  | conversion
  | edge
  | edgeTraversal
  | exception
  | externalProperties
  | externalPropertyFileReference
  | externalPropertyFileReferences
  | fix
  | graph
  | graphTraversal
  | invocation
  | location
  | locationRelationship
  | logicalLocation
  | message
  | multiformatMessageString
  | node
  | notification
  | physicalLocation
  | rectangle
  | region
  | replacement
  | reportingConfiguration
  | reportingDescriptor
  | reportingDescriptorReference
  | reportingDescriptorRelationship
  | result
  | resultProvenance
  | run
  | runAutomationDetails
  | specialLocations
  | stack
  | stackFrame
  | suppression
  | threadFlow
  | threadFlowLocation
  | tool
  | toolComponent
  | toolComponentReference
  | translationMetadata
  | versionControlDetails
  | webRequest
  | webResponse
  deriving DecidableEq, Repr

namespace Kind

/-- Every kind, in canonical order. -/
def all : List Kind :=
  [.sarifLog, .address, .artifact, .artifactChange, .artifactContent, .artifactLocation,
   .attachment, .codeFlow, .configurationOverride, .conversion, .edge, .edgeTraversal,
   .exception, .externalProperties, .externalPropertyFileReference,
   .externalPropertyFileReferences, .fix, .graph, .graphTraversal, .invocation, .location,
   .locationRelationship, .logicalLocation, .message, .multiformatMessageString, .node,
   .notification, .physicalLocation, .rectangle, .region, .replacement,
   .reportingConfiguration, .reportingDescriptor, .reportingDescriptorReference,
   .reportingDescriptorRelationship, .result, .resultProvenance, .run, .runAutomationDetails,
   .specialLocations, .stack, .stackFrame, .suppression, .threadFlow, .threadFlowLocation,
   .tool, .toolComponent, .toolComponentReference, .translationMetadata,
   .versionControlDetails, .webRequest, .webResponse]

/-- The name of a kind. -/
def name : Kind → String
  | sarifLog => "SarifLog"
  | address => "Address"
  | artifact => "Artifact"
  | artifactChange => "ArtifactChange"
  | artifactContent => "ArtifactContent"
  | artifactLocation => "ArtifactLocation"
  | attachment => "Attachment"
  | codeFlow => "CodeFlow"
  | configurationOverride => "ConfigurationOverride"
  | conversion => "Conversion"
  | edge => "Edge"
  | edgeTraversal => "EdgeTraversal"
  | exception => "Exception"
  | externalProperties => "ExternalProperties"
  | externalPropertyFileReference => "ExternalPropertyFileReference"
  | externalPropertyFileReferences => "ExternalPropertyFileReferences"
  | fix => "Fix"
  | graph => "Graph"
  | graphTraversal => "GraphTraversal"
  | invocation => "Invocation"
  | location => "Location"
  | locationRelationship => "LocationRelationship"
  | logicalLocation => "LogicalLocation"
  | message => "Message"
  | multiformatMessageString => "MultiformatMessageString"
  | node => "Node"
  | notification => "Notification"
  | physicalLocation => "PhysicalLocation"
  | rectangle => "Rectangle"
  | region => "Region"
  | replacement => "Replacement"
  | reportingConfiguration => "ReportingConfiguration"
  | reportingDescriptor => "ReportingDescriptor"
  | reportingDescriptorReference => "ReportingDescriptorReference"
  | reportingDescriptorRelationship => "ReportingDescriptorRelationship"
  | result => "Result"
  | resultProvenance => "ResultProvenance"
  | run => "Run"
  | runAutomationDetails => "RunAutomationDetails"
  | specialLocations => "SpecialLocations"
  | stack => "Stack"
  | stackFrame => "StackFrame"
  | suppression => "Suppression"
  | threadFlow => "ThreadFlow"
  | threadFlowLocation => "ThreadFlowLocation"
  | tool => "Tool"
  | toolComponent => "ToolComponent"
  | toolComponentReference => "ToolComponentReference"
  | translationMetadata => "TranslationMetadata"
  | versionControlDetails => "VersionControlDetails"
  | webRequest => "WebRequest"
  | webResponse => "WebResponse"

/-- The kind of a given name. -/
def ofName? (name : String) : Option Kind :=
  all.find? (·.name == name)

/-- The position of a kind in the canonical order. -/
def position (k : Kind) : Nat :=
  k.ctorIdx

end Kind
end Sarif
