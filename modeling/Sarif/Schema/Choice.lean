/-!
# Choices

Some fields hold one of a few named values. A `Choice` is such a set of values; each has a type
of its own, whose values are listed in declaration order with the name that stands on the wire.
The first value of a choice is its default, and the position of a value in the list is what it
hashes by.
-/

namespace Sarif

/-- The version of the format that a log is written in. -/
inductive SarifVersion where
  | v2_1_0
  deriving DecidableEq, Repr

/-- The name of a value on the wire. -/
def SarifVersion.name : SarifVersion → String
  | v2_1_0 => "2.1.0"

/-- The unit in which a tool measures columns. -/
inductive ColumnKind where
  | utf16CodeUnits
  | unicodeCodePoints
  deriving DecidableEq, Repr

/-- The name of a value on the wire. -/
def ColumnKind.name : ColumnKind → String
  | utf16CodeUnits => "utf16CodeUnits"
  | unicodeCodePoints => "unicodeCodePoints"

/-- How severe a result or a notification is. -/
inductive FailureLevel where
  | none
  | note
  | warning
  | error
  deriving DecidableEq, Repr

/-- The name of a value on the wire. -/
def FailureLevel.name : FailureLevel → String
  | none => "none"
  | note => "note"
  | warning => "warning"
  | error => "error"

/-- A kind of data that a tool component holds. -/
inductive ComponentContent where
  | localizedData
  | nonLocalizedData
  deriving DecidableEq, Repr

/-- The name of a value on the wire. -/
def ComponentContent.name : ComponentContent → String
  | localizedData => "localizedData"
  | nonLocalizedData => "nonLocalizedData"

/-- How much a step matters to understanding its flow. -/
inductive Importance where
  | important
  | essential
  | unimportant
  deriving DecidableEq, Repr

/-- The name of a value on the wire. -/
def Importance.name : Importance → String
  | important => "important"
  | essential => "essential"
  | unimportant => "unimportant"

/-- A part that an artifact plays in an analysis. -/
inductive ArtifactRole where
  | analysisTarget
  | attachment
  | responseFile
  | resultFile
  | standardStream
  | tracedFile
  | unmodified
  | modified
  | added
  | deleted
  | renamed
  | uncontrolled
  | driver
  | extension
  | translation
  | taxonomy
  | policy
  | referencedOnCommandLine
  | memoryContents
  | directory
  | userSpecifiedConfiguration
  | toolSpecifiedConfiguration
  | debugOutputFile
  deriving DecidableEq, Repr

/-- The name of a value on the wire. -/
def ArtifactRole.name : ArtifactRole → String
  | analysisTarget => "analysisTarget"
  | attachment => "attachment"
  | responseFile => "responseFile"
  | resultFile => "resultFile"
  | standardStream => "standardStream"
  | tracedFile => "tracedFile"
  | unmodified => "unmodified"
  | modified => "modified"
  | added => "added"
  | deleted => "deleted"
  | renamed => "renamed"
  | uncontrolled => "uncontrolled"
  | driver => "driver"
  | extension => "extension"
  | translation => "translation"
  | taxonomy => "taxonomy"
  | policy => "policy"
  | referencedOnCommandLine => "referencedOnCommandLine"
  | memoryContents => "memoryContents"
  | directory => "directory"
  | userSpecifiedConfiguration => "userSpecifiedConfiguration"
  | toolSpecifiedConfiguration => "toolSpecifiedConfiguration"
  | debugOutputFile => "debugOutputFile"

/-- What a result says about its rule. -/
inductive ResultKind where
  | notApplicable
  | pass
  | fail
  | review
  | undecided
  | informational
  deriving DecidableEq, Repr

/-- The name of a value on the wire. -/
def ResultKind.name : ResultKind → String
  | notApplicable => "notApplicable"
  | pass => "pass"
  | fail => "fail"
  | review => "review"
  | undecided => "open"
  | informational => "informational"

/-- How a result compares with the baseline run. -/
inductive BaselineState where
  | new
  | unchanged
  | updated
  | absent
  deriving DecidableEq, Repr

/-- The name of a value on the wire. -/
def BaselineState.name : BaselineState → String
  | new => "new"
  | unchanged => "unchanged"
  | updated => "updated"
  | absent => "absent"

/-- Where a suppression is recorded. -/
inductive SuppressionKind where
  | inSource
  | external
  deriving DecidableEq, Repr

/-- The name of a value on the wire. -/
def SuppressionKind.name : SuppressionKind → String
  | inSource => "inSource"
  | external => "external"

/-- How far the review of a suppression has come. -/
inductive SuppressionStatus where
  | accepted
  | underReview
  | rejected
  deriving DecidableEq, Repr

/-- The name of a value on the wire. -/
def SuppressionStatus.name : SuppressionStatus → String
  | accepted => "accepted"
  | underReview => "underReview"
  | rejected => "rejected"

/-- A set of named values. -/
inductive Choice where
  | version
  | columnKind
  | failureLevel
  | componentContent
  | importance
  | artifactRole
  | resultKind
  | baselineState
  | suppressionKind
  | suppressionStatus
  deriving DecidableEq, Repr

namespace Choice

/-- The values of a choice. -/
abbrev Value : Choice → Type
  | version => SarifVersion
  | columnKind => ColumnKind
  | failureLevel => FailureLevel
  | componentContent => ComponentContent
  | importance => Importance
  | artifactRole => ArtifactRole
  | resultKind => ResultKind
  | baselineState => BaselineState
  | suppressionKind => SuppressionKind
  | suppressionStatus => SuppressionStatus

/-- Every value of a choice, in declaration order. -/
def values : (c : Choice) → List c.Value
  | version => [.v2_1_0]
  | columnKind => [.utf16CodeUnits, .unicodeCodePoints]
  | failureLevel => [.none, .note, .warning, .error]
  | componentContent => [.localizedData, .nonLocalizedData]
  | importance => [.important, .essential, .unimportant]
  | artifactRole => [.analysisTarget, .attachment, .responseFile, .resultFile, .standardStream,
      .tracedFile, .unmodified, .modified, .added, .deleted, .renamed, .uncontrolled, .driver,
      .extension, .translation, .taxonomy, .policy, .referencedOnCommandLine, .memoryContents,
      .directory, .userSpecifiedConfiguration, .toolSpecifiedConfiguration, .debugOutputFile]
  | resultKind => [.notApplicable, .pass, .fail, .review, .undecided, .informational]
  | baselineState => [.new, .unchanged, .updated, .absent]
  | suppressionKind => [.inSource, .external]
  | suppressionStatus => [.accepted, .underReview, .rejected]

/-- The name of a value on the wire. -/
def name : (c : Choice) → c.Value → String
  | version => SarifVersion.name
  | columnKind => ColumnKind.name
  | failureLevel => FailureLevel.name
  | componentContent => ComponentContent.name
  | importance => Importance.name
  | artifactRole => ArtifactRole.name
  | resultKind => ResultKind.name
  | baselineState => BaselineState.name
  | suppressionKind => SuppressionKind.name
  | suppressionStatus => SuppressionStatus.name

/-- The value that a choice takes when nothing is said. -/
def default : (c : Choice) → c.Value
  | version => .v2_1_0
  | columnKind => .utf16CodeUnits
  | failureLevel => .none
  | componentContent => .localizedData
  | importance => .important
  | artifactRole => .analysisTarget
  | resultKind => .notApplicable
  | baselineState => .new
  | suppressionKind => .inSource
  | suppressionStatus => .accepted

/-- The names of a choice, in declaration order. -/
def names (c : Choice) : List String :=
  c.values.map c.name

/-- The value of a given name. -/
def ofName? (c : Choice) (name : String) : Option c.Value :=
  c.values.find? (c.name · == name)

/-- The number of bytes that the position of a value takes when it is hashed. A choice of one
value needs none. -/
def tagSize (c : Choice) : Nat :=
  if c.values.length = 1 then 0 else 8

end Choice

instance (c : Choice) : DecidableEq c.Value :=
  match c with
  | .version => inferInstanceAs (DecidableEq SarifVersion)
  | .columnKind => inferInstanceAs (DecidableEq ColumnKind)
  | .failureLevel => inferInstanceAs (DecidableEq FailureLevel)
  | .componentContent => inferInstanceAs (DecidableEq ComponentContent)
  | .importance => inferInstanceAs (DecidableEq Importance)
  | .artifactRole => inferInstanceAs (DecidableEq ArtifactRole)
  | .resultKind => inferInstanceAs (DecidableEq ResultKind)
  | .baselineState => inferInstanceAs (DecidableEq BaselineState)
  | .suppressionKind => inferInstanceAs (DecidableEq SuppressionKind)
  | .suppressionStatus => inferInstanceAs (DecidableEq SuppressionStatus)

/-- The position of a value in its choice. -/
def Choice.position (c : Choice) (value : c.Value) : Nat :=
  c.values.idxOf value

end Sarif
