import Sarif.ArtifactTable
import Sarif.Build
import Sarif.Dict
import Sarif.Effective
import Sarif.Error
import Sarif.GraphSearch
import Sarif.Hash.Basic
import Sarif.Hash.SipHash
import Sarif.Json.Basic
import Sarif.Node.Basic
import Sarif.Node.Children
import Sarif.Node.Default
import Sarif.Node.Equality
import Sarif.Node.FieldNames
import Sarif.Node.Hash
import Sarif.Node.Path
import Sarif.Node.Read
import Sarif.Node.Write
import Sarif.NodeList
import Sarif.Number.Binary64
import Sarif.Number.Decimal
import Sarif.Number.Numeral
import Sarif.Number.Scaling
import Sarif.Number.Shortest
import Sarif.Number.Spelling
import Sarif.Number.Width
import Sarif.Problem
import Sarif.Proofs.Artifacts.Lookup
import Sarif.Proofs.Artifacts.Sequence
import Sarif.Proofs.Dict
import Sarif.Proofs.Graph.Search
import Sarif.Proofs.Hash.Change
import Sarif.Proofs.Hash.Consistency
import Sarif.Proofs.Hash.Folding
import Sarif.Proofs.Hash.Reordering
import Sarif.Proofs.Json.Alike
import Sarif.Proofs.Json.Fits
import Sarif.Proofs.Json.Zeros
import Sarif.Proofs.Lookups.Congruence
import Sarif.Proofs.Node.Agreement
import Sarif.Proofs.Node.Assignment
import Sarif.Proofs.Node.Default
import Sarif.Proofs.Node.EachPart
import Sarif.Proofs.Node.Fits
import Sarif.Proofs.Node.Frame
import Sarif.Proofs.Node.Members
import Sarif.Proofs.Node.Positional
import Sarif.Proofs.Node.Property
import Sarif.Proofs.Node.ReadsBack
import Sarif.Proofs.Node.Related
import Sarif.Proofs.Node.RelatedFields
import Sarif.Proofs.Node.Replacement
import Sarif.Proofs.Node.RoundTrip
import Sarif.Proofs.Node.SameDocument
import Sarif.Proofs.Node.Sentinels
import Sarif.Proofs.Node.SetProperty
import Sarif.Proofs.Node.Stability
import Sarif.Proofs.Node.Tree
import Sarif.Proofs.Node.WellFormed
import Sarif.Proofs.NodeList
import Sarif.Proofs.Number.Digits
import Sarif.Proofs.Number.ReadsBack
import Sarif.Proofs.Number.Rounding
import Sarif.Proofs.PropertyBag.Filling
import Sarif.Proofs.PropertyBag.History
import Sarif.Proofs.PropertyBag.Tags
import Sarif.Proofs.PropertyBag.Unreported
import Sarif.Proofs.Reading.Admission
import Sarif.Proofs.Reading.Agreement
import Sarif.Proofs.Reading.Alike
import Sarif.Proofs.Reading.Context
import Sarif.Proofs.Reading.Fits
import Sarif.Proofs.Reading.Flat
import Sarif.Proofs.Reading.Scalars
import Sarif.Proofs.Reading.Stored
import Sarif.Proofs.Reading.StoredFlat
import Sarif.Proofs.Relator
import Sarif.Proofs.Rules.Components
import Sarif.Proofs.Rules.Hierarchy
import Sarif.Proofs.Rules.Resolution
import Sarif.Proofs.Sentinel
import Sarif.Proofs.Template.Filling
import Sarif.Proofs.Template.Segments
import Sarif.Proofs.Text.Composition
import Sarif.Proofs.Text.Parsing
import Sarif.Proofs.Text.Scanning
import Sarif.Proofs.Time.Calendar
import Sarif.Proofs.Time.Injective
import Sarif.Proofs.Time.ReadsBack
import Sarif.Proofs.Time.WellFormed
import Sarif.Proofs.Uri
import Sarif.Proofs.Uri.Composition
import Sarif.Proofs.Walk.Edits
import Sarif.Proofs.Walk.Rewriting
import Sarif.Proofs.Walk.Visits
import Sarif.PropertyBag
import Sarif.Reading.Source
import Sarif.Rules
import Sarif.Schema.Choice
import Sarif.Schema.Fields
import Sarif.Schema.Kind
import Sarif.Schema.Ty
import Sarif.Sentinel
import Sarif.Template
import Sarif.Text.Document
import Sarif.Text.Hidden
import Sarif.Text.Literal
import Sarif.Text.Token
import Sarif.Text.WhiteSpace
import Sarif.Time.Calendar
import Sarif.Time.DateTime
import Sarif.Uri
import Sarif.Value.Flat
import Sarif.Value.Scalar
import Sarif.Walk
