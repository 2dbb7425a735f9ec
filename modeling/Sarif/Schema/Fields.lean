import Sarif.Schema.Ty

/-!
# Fields of the node kinds

The fields of every kind, in declaration order. The order matters: it is the order in which
fields are written, hashed and walked, and the order of the values in the positional form of a
node. Every kind ends with its property bag.
-/

namespace Sarif
namespace Kind

open FieldType Ty

/-- The fields of a kind, in declaration order. -/
def fields : Kind → List Field
  | sarifLog => [
    ⟨"$schema", optional text⟩,
    ⟨"version", required (choice .version)⟩,
    ⟨"runs", optional (nodes .run)⟩,
    ⟨"inlineExternalProperties", optional (nodes .externalProperties)⟩,
    ⟨"properties", optional bag⟩]
  | address => [
    ⟨"absoluteAddress", required sentinel⟩,
    ⟨"relativeAddress", optional integer⟩,
    ⟨"length", optional integer⟩,
    ⟨"kind", optional text⟩,
    ⟨"name", optional text⟩,
    ⟨"fullyQualifiedName", optional text⟩,
    ⟨"offsetFromParent", optional integer⟩,
    ⟨"index", required sentinel⟩,
    ⟨"parentIndex", required sentinel⟩,
    ⟨"properties", optional bag⟩]
  | artifact => [
    ⟨"description", optional (.node .message)⟩,
    ⟨"location", optional (.node .artifactLocation)⟩,
    ⟨"parentIndex", required sentinel⟩,
    ⟨"offset", optional integer⟩,
    ⟨"length", required sentinel⟩,
    ⟨"roles", optional (choices .artifactRole)⟩,
    ⟨"mimeType", optional text⟩,
    ⟨"contents", optional (.node .artifactContent)⟩,
    ⟨"encoding", optional text⟩,
    ⟨"sourceLanguage", optional text⟩,
    ⟨"hashes", optional textMap⟩,
    ⟨"lastModifiedTimeUtc", optional dateTime⟩,
    ⟨"properties", optional bag⟩]
  | artifactChange => [
    ⟨"artifactLocation", required (.node .artifactLocation)⟩,
    ⟨"replacements", required (nodes .replacement)⟩,
    ⟨"properties", optional bag⟩]
  | artifactContent => [
    ⟨"text", optional text⟩,
    ⟨"binary", optional text⟩,
    ⟨"rendered", optional (.node .multiformatMessageString)⟩,
    ⟨"properties", optional bag⟩]
  | artifactLocation => [
    ⟨"uri", optional text⟩,
    ⟨"uriBaseId", optional text⟩,
    ⟨"index", required sentinel⟩,
    ⟨"description", optional (.node .message)⟩,
    ⟨"properties", optional bag⟩]
  | attachment => [
    ⟨"description", optional (.node .message)⟩,
    ⟨"artifactLocation", required (.node .artifactLocation)⟩,
    ⟨"regions", optional (nodes .region)⟩,
    ⟨"rectangles", optional (nodes .rectangle)⟩,
    ⟨"properties", optional bag⟩]
  | codeFlow => [
    ⟨"message", optional (.node .message)⟩,
    ⟨"threadFlows", required (nodes .threadFlow)⟩,
    ⟨"properties", optional bag⟩]
  | configurationOverride => [
    ⟨"configuration", required (.node .reportingConfiguration)⟩,
    ⟨"descriptor", required (.node .reportingDescriptorReference)⟩,
    ⟨"properties", optional bag⟩]
  | conversion => [
    ⟨"tool", required (.node .tool)⟩,
    ⟨"invocation", optional (.node .invocation)⟩,
    ⟨"analysisToolLogFiles", optional (nodes .artifactLocation)⟩,
    ⟨"properties", optional bag⟩]
  | edge => [
    ⟨"id", required text⟩,
    ⟨"label", optional (.node .message)⟩,
    ⟨"sourceNodeId", required text⟩,
    ⟨"targetNodeId", required text⟩,
    ⟨"properties", optional bag⟩]
  | edgeTraversal => [
    ⟨"edgeId", required text⟩,
    ⟨"message", optional (.node .message)⟩,
    ⟨"finalState", optional (nodeMap .multiformatMessageString)⟩,
    ⟨"stepOverEdgeCount", optional integer⟩,
    ⟨"properties", optional bag⟩]
  | exception => [
    ⟨"kind", optional text⟩,
    ⟨"message", optional text⟩,
    ⟨"stack", optional (.node .stack)⟩,
    ⟨"innerExceptions", optional (nodes .exception)⟩,
    ⟨"properties", optional bag⟩]
  | externalProperties => [
    ⟨"$schema", optional text⟩,
    ⟨"version", optional (choice .version)⟩,
    ⟨"guid", optional text⟩,
    ⟨"runGuid", optional text⟩,
    ⟨"conversion", optional (.node .conversion)⟩,
    ⟨"graphs", optional (nodes .graph)⟩,
    ⟨"externalizedProperties", optional bag⟩,
    ⟨"artifacts", optional (nodes .artifact)⟩,
    ⟨"invocations", optional (nodes .invocation)⟩,
    ⟨"logicalLocations", optional (nodes .logicalLocation)⟩,
    ⟨"threadFlowLocations", optional (nodes .threadFlowLocation)⟩,
    ⟨"results", optional (nodes .result)⟩,
    ⟨"taxonomies", optional (nodes .toolComponent)⟩,
    ⟨"driver", optional (.node .toolComponent)⟩,
    ⟨"extensions", optional (nodes .toolComponent)⟩,
    ⟨"policies", optional (nodes .toolComponent)⟩,
    ⟨"translations", optional (nodes .toolComponent)⟩,
    ⟨"addresses", optional (nodes .address)⟩,
    ⟨"webRequests", optional (nodes .webRequest)⟩,
    ⟨"webResponses", optional (nodes .webResponse)⟩,
    ⟨"properties", optional bag⟩]
  | externalPropertyFileReference => [
    ⟨"location", optional (.node .artifactLocation)⟩,
    ⟨"guid", optional text⟩,
    ⟨"itemCount", required sentinel⟩,
    ⟨"properties", optional bag⟩]
  | externalPropertyFileReferences => [
    ⟨"conversion", optional (.node .externalPropertyFileReference)⟩,
    ⟨"graphs", optional (nodes .externalPropertyFileReference)⟩,
    ⟨"externalizedProperties", optional (.node .externalPropertyFileReference)⟩,
    ⟨"artifacts", optional (nodes .externalPropertyFileReference)⟩,
    ⟨"invocations", optional (nodes .externalPropertyFileReference)⟩,
    ⟨"logicalLocations", optional (nodes .externalPropertyFileReference)⟩,
    ⟨"threadFlowLocations", optional (nodes .externalPropertyFileReference)⟩,
    ⟨"results", optional (nodes .externalPropertyFileReference)⟩,
    ⟨"taxonomies", optional (nodes .externalPropertyFileReference)⟩,
    ⟨"addresses", optional (nodes .externalPropertyFileReference)⟩,
    ⟨"driver", optional (.node .externalPropertyFileReference)⟩,
    ⟨"extensions", optional (nodes .externalPropertyFileReference)⟩,
    ⟨"policies", optional (nodes .externalPropertyFileReference)⟩,
    ⟨"translations", optional (nodes .externalPropertyFileReference)⟩,
    ⟨"webRequests", optional (nodes .externalPropertyFileReference)⟩,
    ⟨"webResponses", optional (nodes .externalPropertyFileReference)⟩,
    ⟨"properties", optional bag⟩]
  | fix => [
    ⟨"description", optional (.node .message)⟩,
    ⟨"artifactChanges", required (nodes .artifactChange)⟩,
    ⟨"properties", optional bag⟩]
  | graph => [
    ⟨"description", optional (.node .message)⟩,
    ⟨"nodes", optional (nodes .node)⟩,
    ⟨"edges", optional (nodes .edge)⟩,
    ⟨"properties", optional bag⟩]
  | graphTraversal => [
    ⟨"runGraphIndex", required sentinel⟩,
    ⟨"resultGraphIndex", required sentinel⟩,
    ⟨"description", optional (.node .message)⟩,
    ⟨"initialState", optional (nodeMap .multiformatMessageString)⟩,
    ⟨"immutableState", optional (nodeMap .multiformatMessageString)⟩,
    ⟨"edgeTraversals", optional (nodes .edgeTraversal)⟩,
    ⟨"properties", optional bag⟩]
  | invocation => [
    ⟨"commandLine", optional text⟩,
    ⟨"arguments", optional texts⟩,
    ⟨"responseFiles", optional (nodes .artifactLocation)⟩,
    ⟨"startTimeUtc", optional dateTime⟩,
    ⟨"endTimeUtc", optional dateTime⟩,
    ⟨"exitCode", optional integer⟩,
    ⟨"ruleConfigurationOverrides", optional (nodes .configurationOverride)⟩,
    ⟨"notificationConfigurationOverrides", optional (nodes .configurationOverride)⟩,
    ⟨"toolExecutionNotifications", optional (nodes .notification)⟩,
    ⟨"toolConfigurationNotifications", optional (nodes .notification)⟩,
    ⟨"exitCodeDescription", optional text⟩,
    ⟨"exitSignalName", optional text⟩,
    ⟨"exitSignalNumber", optional integer⟩,
    ⟨"processStartFailureMessage", optional text⟩,
    ⟨"executionSuccessful", required boolean⟩,
    ⟨"machine", optional text⟩,
    ⟨"account", optional text⟩,
    ⟨"processId", optional integer⟩,
    ⟨"executableLocation", optional (.node .artifactLocation)⟩,
    ⟨"workingDirectory", optional (.node .artifactLocation)⟩,
    ⟨"environmentVariables", optional textMap⟩,
    ⟨"stdin", optional (.node .artifactLocation)⟩,
    ⟨"stdout", optional (.node .artifactLocation)⟩,
    ⟨"stderr", optional (.node .artifactLocation)⟩,
    ⟨"stdoutStderr", optional (.node .artifactLocation)⟩,
    ⟨"properties", optional bag⟩]
  | location => [
    ⟨"id", required sentinel⟩,
    ⟨"physicalLocation", optional (.node .physicalLocation)⟩,
    ⟨"logicalLocations", optional (nodes .logicalLocation)⟩,
    ⟨"message", optional (.node .message)⟩,
    ⟨"annotations", optional (nodes .region)⟩,
    ⟨"relationships", optional (nodes .locationRelationship)⟩,
    ⟨"properties", optional bag⟩]
  | locationRelationship => [
    ⟨"target", required integer⟩,
    ⟨"kinds", optional texts⟩,
    ⟨"description", optional (.node .message)⟩,
    ⟨"properties", optional bag⟩]
  | logicalLocation => [
    ⟨"name", optional text⟩,
    ⟨"index", required sentinel⟩,
    ⟨"fullyQualifiedName", optional text⟩,
    ⟨"decoratedName", optional text⟩,
    ⟨"parentIndex", required sentinel⟩,
    ⟨"kind", optional text⟩,
    ⟨"properties", optional bag⟩]
  | message => [
    ⟨"text", optional text⟩,
    ⟨"markdown", optional text⟩,
    ⟨"id", optional text⟩,
    ⟨"arguments", optional texts⟩,
    ⟨"properties", optional bag⟩]
  | multiformatMessageString => [
    ⟨"text", required text⟩,
    ⟨"markdown", optional text⟩,
    ⟨"properties", optional bag⟩]
  | node => [
    ⟨"id", required text⟩,
    ⟨"label", optional (.node .message)⟩,
    ⟨"location", optional (.node .location)⟩,
    ⟨"children", optional (nodes .node)⟩,
    ⟨"properties", optional bag⟩]
  | notification => [
    ⟨"locations", optional (nodes .location)⟩,
    ⟨"message", required (.node .message)⟩,
    ⟨"level", optional (choice .failureLevel)⟩,
    ⟨"threadId", optional integer⟩,
    ⟨"timeUtc", optional dateTime⟩,
    ⟨"exception", optional (.node .exception)⟩,
    ⟨"descriptor", optional (.node .reportingDescriptorReference)⟩,
    ⟨"associatedRule", optional (.node .reportingDescriptorReference)⟩,
    ⟨"properties", optional bag⟩]
  | physicalLocation => [
    ⟨"address", optional (.node .address)⟩,
    ⟨"artifactLocation", optional (.node .artifactLocation)⟩,
    ⟨"region", optional (.node .region)⟩,
    ⟨"contextRegion", optional (.node .region)⟩,
    ⟨"properties", optional bag⟩]
  | rectangle => [
    ⟨"top", optional number⟩,
    ⟨"left", optional number⟩,
    ⟨"bottom", optional number⟩,
    ⟨"right", optional number⟩,
    ⟨"message", optional (.node .message)⟩,
    ⟨"properties", optional bag⟩]
  | region => [
    ⟨"startLine", optional integer⟩,
    ⟨"startColumn", optional integer⟩,
    ⟨"endLine", optional integer⟩,
    ⟨"endColumn", optional integer⟩,
    ⟨"charOffset", required sentinel⟩,
    ⟨"charLength", optional integer⟩,
    ⟨"byteOffset", required sentinel⟩,
    ⟨"byteLength", optional integer⟩,
    ⟨"snippet", optional (.node .artifactContent)⟩,
    ⟨"message", optional (.node .message)⟩,
    ⟨"sourceLanguage", optional text⟩,
    ⟨"properties", optional bag⟩]
  | replacement => [
    ⟨"deletedRegion", required (.node .region)⟩,
    ⟨"insertedContent", optional (.node .artifactContent)⟩,
    ⟨"properties", optional bag⟩]
  | reportingConfiguration => [
    ⟨"enabled", optional boolean⟩,
    ⟨"level", optional (choice .failureLevel)⟩,
    ⟨"rank", optional number⟩,
    ⟨"parameters", optional bag⟩,
    ⟨"properties", optional bag⟩]
  | reportingDescriptor => [
    ⟨"id", required text⟩,
    ⟨"deprecatedIds", optional texts⟩,
    ⟨"guid", optional text⟩,
    ⟨"deprecatedGuids", optional texts⟩,
    ⟨"name", optional text⟩,
    ⟨"deprecatedNames", optional texts⟩,
    ⟨"shortDescription", optional (.node .multiformatMessageString)⟩,
    ⟨"fullDescription", optional (.node .multiformatMessageString)⟩,
    ⟨"messageStrings", optional (nodeMap .multiformatMessageString)⟩,
    ⟨"defaultConfiguration", optional (.node .reportingConfiguration)⟩,
    ⟨"helpUri", optional text⟩,
    ⟨"help", optional (.node .multiformatMessageString)⟩,
    ⟨"relationships", optional (nodes .reportingDescriptorRelationship)⟩,
    ⟨"properties", optional bag⟩]
  | reportingDescriptorReference => [
    ⟨"id", optional text⟩,
    ⟨"index", required sentinel⟩,
    ⟨"guid", optional text⟩,
    ⟨"toolComponent", optional (.node .toolComponentReference)⟩,
    ⟨"properties", optional bag⟩]
  | reportingDescriptorRelationship => [
    ⟨"target", required (.node .reportingDescriptorReference)⟩,
    ⟨"kinds", optional texts⟩,
    ⟨"description", optional (.node .message)⟩,
    ⟨"properties", optional bag⟩]
  | result => [
    ⟨"ruleId", optional text⟩,
    ⟨"ruleIndex", required sentinel⟩,
    ⟨"rule", optional (.node .reportingDescriptorReference)⟩,
    ⟨"kind", optional (choice .resultKind)⟩,
    ⟨"level", optional (choice .failureLevel)⟩,
    ⟨"message", required (.node .message)⟩,
    ⟨"analysisTarget", optional (.node .artifactLocation)⟩,
    ⟨"locations", optional (nodes .location)⟩,
    ⟨"guid", optional text⟩,
    ⟨"correlationGuid", optional text⟩,
    ⟨"occurrenceCount", optional integer⟩,
    ⟨"partialFingerprints", optional textMap⟩,
    ⟨"fingerprints", optional textMap⟩,
    ⟨"stacks", optional (nodes .stack)⟩,
    ⟨"codeFlows", optional (nodes .codeFlow)⟩,
    ⟨"graphs", optional (nodes .graph)⟩,
    ⟨"graphTraversals", optional (nodes .graphTraversal)⟩,
    ⟨"relatedLocations", optional (nodes .location)⟩,
    ⟨"suppressions", optional (nodes .suppression)⟩,
    ⟨"baselineState", optional (choice .baselineState)⟩,
    ⟨"rank", optional number⟩,
    ⟨"attachments", optional (nodes .attachment)⟩,
    ⟨"hostedViewerUri", optional text⟩,
    ⟨"workItemUris", optional texts⟩,
    ⟨"provenance", optional (.node .resultProvenance)⟩,
    ⟨"fixes", optional (nodes .fix)⟩,
    ⟨"taxa", optional (nodes .reportingDescriptorReference)⟩,
    ⟨"webRequest", optional (.node .webRequest)⟩,
    ⟨"webResponse", optional (.node .webResponse)⟩,
    ⟨"properties", optional bag⟩]
  | resultProvenance => [
    ⟨"firstDetectionTimeUtc", optional dateTime⟩,
    ⟨"lastDetectionTimeUtc", optional dateTime⟩,
    ⟨"firstDetectionRunGuid", optional text⟩,
    ⟨"lastDetectionRunGuid", optional text⟩,
    ⟨"invocationIndex", required sentinel⟩,
    ⟨"conversionSources", optional (nodes .physicalLocation)⟩,
    ⟨"properties", optional bag⟩]
  | run => [
    ⟨"tool", required (.node .tool)⟩,
    ⟨"invocations", optional (nodes .invocation)⟩,
    ⟨"conversion", optional (.node .conversion)⟩,
    ⟨"language", optional text⟩,
    ⟨"versionControlProvenance", optional (nodes .versionControlDetails)⟩,
    ⟨"originalUriBaseIds", optional (nodeMap .artifactLocation)⟩,
    ⟨"artifacts", optional (nodes .artifact)⟩,
    ⟨"logicalLocations", optional (nodes .logicalLocation)⟩,
    ⟨"graphs", optional (nodes .graph)⟩,
    ⟨"results", optional (nodes .result)⟩,
    ⟨"automationDetails", optional (.node .runAutomationDetails)⟩,
    ⟨"runAggregates", optional (nodes .runAutomationDetails)⟩,
    ⟨"baselineGuid", optional text⟩,
    ⟨"redactionTokens", optional texts⟩,
    ⟨"defaultEncoding", optional text⟩,
    ⟨"defaultSourceLanguage", optional text⟩,
    ⟨"newlineSequences", optional texts⟩,
    ⟨"columnKind", optional (choice .columnKind)⟩,
    ⟨"externalPropertyFileReferences", optional (.node .externalPropertyFileReferences)⟩,
    ⟨"threadFlowLocations", optional (nodes .threadFlowLocation)⟩,
    ⟨"taxonomies", optional (nodes .toolComponent)⟩,
    ⟨"addresses", optional (nodes .address)⟩,
    ⟨"translations", optional (nodes .toolComponent)⟩,
    ⟨"policies", optional (nodes .toolComponent)⟩,
    ⟨"webRequests", optional (nodes .webRequest)⟩,
    ⟨"webResponses", optional (nodes .webResponse)⟩,
    ⟨"specialLocations", optional (.node .specialLocations)⟩,
    ⟨"properties", optional bag⟩]
  | runAutomationDetails => [
    ⟨"description", optional (.node .message)⟩,
    ⟨"id", optional text⟩,
    ⟨"guid", optional text⟩,
    ⟨"correlationGuid", optional text⟩,
    ⟨"properties", optional bag⟩]
  | specialLocations => [
    ⟨"displayBase", optional (.node .artifactLocation)⟩,
    ⟨"properties", optional bag⟩]
  | stack => [
    ⟨"message", optional (.node .message)⟩,
    ⟨"frames", required (nodes .stackFrame)⟩,
    ⟨"properties", optional bag⟩]
  | stackFrame => [
    ⟨"location", optional (.node .location)⟩,
    ⟨"module", optional text⟩,
    ⟨"threadId", optional integer⟩,
    ⟨"parameters", optional texts⟩,
    ⟨"properties", optional bag⟩]
  | suppression => [
    ⟨"guid", optional text⟩,
    ⟨"kind", required (choice .suppressionKind)⟩,
    ⟨"status", optional (choice .suppressionStatus)⟩,
    ⟨"justification", optional text⟩,
    ⟨"location", optional (.node .location)⟩,
    ⟨"properties", optional bag⟩]
  | threadFlow => [
    ⟨"id", optional text⟩,
    ⟨"message", optional (.node .message)⟩,
    ⟨"initialState", optional (nodeMap .multiformatMessageString)⟩,
    ⟨"immutableState", optional (nodeMap .multiformatMessageString)⟩,
    ⟨"locations", required (nodes .threadFlowLocation)⟩,
    ⟨"properties", optional bag⟩]
  | threadFlowLocation => [
    ⟨"index", required sentinel⟩,
    ⟨"location", optional (.node .location)⟩,
    ⟨"stack", optional (.node .stack)⟩,
    ⟨"kinds", optional texts⟩,
    ⟨"taxa", optional (nodes .reportingDescriptorReference)⟩,
    ⟨"module", optional text⟩,
    ⟨"state", optional (nodeMap .multiformatMessageString)⟩,
    ⟨"nestingLevel", optional integer⟩,
    ⟨"executionOrder", required sentinel⟩,
    ⟨"executionTimeUtc", optional dateTime⟩,
    ⟨"importance", optional (choice .importance)⟩,
    ⟨"webRequest", optional (.node .webRequest)⟩,
    ⟨"webResponse", optional (.node .webResponse)⟩,
    ⟨"properties", optional bag⟩]
  | tool => [
    ⟨"driver", required (.node .toolComponent)⟩,
    ⟨"extensions", optional (nodes .toolComponent)⟩,
    ⟨"properties", optional bag⟩]
  | toolComponent => [
    ⟨"guid", optional text⟩,
    ⟨"name", required text⟩,
    ⟨"organization", optional text⟩,
    ⟨"product", optional text⟩,
    ⟨"productSuite", optional text⟩,
    ⟨"shortDescription", optional (.node .multiformatMessageString)⟩,
    ⟨"fullDescription", optional (.node .multiformatMessageString)⟩,
    ⟨"fullName", optional text⟩,
    ⟨"version", optional text⟩,
    ⟨"semanticVersion", optional text⟩,
    ⟨"dottedQuadFileVersion", optional text⟩,
    ⟨"releaseDateUtc", optional text⟩,
    ⟨"downloadUri", optional text⟩,
    ⟨"informationUri", optional text⟩,
    ⟨"globalMessageStrings", optional (nodeMap .multiformatMessageString)⟩,
    ⟨"notifications", optional (nodes .reportingDescriptor)⟩,
    ⟨"rules", optional (nodes .reportingDescriptor)⟩,
    ⟨"taxa", optional (nodes .reportingDescriptor)⟩,
    ⟨"locations", optional (nodes .artifactLocation)⟩,
    ⟨"language", optional text⟩,
    ⟨"contents", optional (choices .componentContent)⟩,
    ⟨"isComprehensive", optional boolean⟩,
    ⟨"localizedDataSemanticVersion", optional text⟩,
    ⟨"minimumRequiredLocalizedDataSemanticVersion", optional text⟩,
    ⟨"associatedComponent", optional (.node .toolComponentReference)⟩,
    ⟨"translationMetadata", optional (.node .translationMetadata)⟩,
    ⟨"supportedTaxonomies", optional (nodes .toolComponentReference)⟩,
    ⟨"properties", optional bag⟩]
  | toolComponentReference => [
    ⟨"name", optional text⟩,
    ⟨"index", required sentinel⟩,
    ⟨"guid", optional text⟩,
    ⟨"properties", optional bag⟩]
  | translationMetadata => [
    ⟨"name", required text⟩,
    ⟨"fullName", optional text⟩,
    ⟨"shortDescription", optional (.node .multiformatMessageString)⟩,
    ⟨"fullDescription", optional (.node .multiformatMessageString)⟩,
    ⟨"downloadUri", optional text⟩,
    ⟨"informationUri", optional text⟩,
    ⟨"properties", optional bag⟩]
  | versionControlDetails => [
    ⟨"repositoryUri", required text⟩,
    ⟨"revisionId", optional text⟩,
    ⟨"branch", optional text⟩,
    ⟨"revisionTag", optional text⟩,
    ⟨"asOfTimeUtc", optional dateTime⟩,
    ⟨"mappedTo", optional (.node .artifactLocation)⟩,
    ⟨"properties", optional bag⟩]
  | webRequest => [
    ⟨"index", required sentinel⟩,
    ⟨"protocol", optional text⟩,
    ⟨"version", optional text⟩,
    ⟨"target", optional text⟩,
    ⟨"method", optional text⟩,
    ⟨"headers", optional textMap⟩,
    ⟨"parameters", optional textMap⟩,
    ⟨"body", optional (.node .artifactContent)⟩,
    ⟨"properties", optional bag⟩]
  | webResponse => [
    ⟨"index", required sentinel⟩,
    ⟨"protocol", optional text⟩,
    ⟨"version", optional text⟩,
    ⟨"statusCode", optional integer⟩,
    ⟨"reasonPhrase", optional text⟩,
    ⟨"headers", optional textMap⟩,
    ⟨"body", optional (.node .artifactContent)⟩,
    ⟨"noResponseReceived", optional boolean⟩,
    ⟨"properties", optional bag⟩]

end Kind
end Sarif
