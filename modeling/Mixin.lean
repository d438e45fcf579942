import Mixin.Configuration.Document
import Mixin.Configuration.Error
import Mixin.Configuration.Shape
import Mixin.Decimal.Layout
import Mixin.Decimal.Shortest
import Mixin.Declaration.Basic
import Mixin.Declaration.Field
import Mixin.Declaration.OfJson
import Mixin.Declaration.OfText
import Mixin.Declaration.Printer
import Mixin.Declaration.Rejection
import Mixin.Declaration.Stream
import Mixin.Distinct
import Mixin.Event
import Mixin.Hierarchy.Basic
import Mixin.Hierarchy.Load
import Mixin.Host.Arguments
import Mixin.Host.Folder
import Mixin.Host.Run
import Mixin.Json.Basic
import Mixin.Json.Document
import Mixin.Json.Fault
import Mixin.Json.Found
import Mixin.Json.Numeral
import Mixin.Json.Printer
import Mixin.Json.Sequence
import Mixin.Json.Skim
import Mixin.Json.Text
import Mixin.Main
import Mixin.Mapping.Basic
import Mixin.Mapping.Load
import Mixin.Proofs.Computation
import Mixin.Proofs.Configuration.Admission
import Mixin.Proofs.Configuration.Shape
import Mixin.Proofs.Configuration.Violations
import Mixin.Proofs.Configuration.Written
import Mixin.Proofs.Declaration.Agreement
import Mixin.Proofs.Declaration.Concatenation
import Mixin.Proofs.Declaration.FaultLine
import Mixin.Proofs.Declaration.Framing
import Mixin.Proofs.Declaration.Locality
import Mixin.Proofs.Declaration.RoundTrip
import Mixin.Proofs.Hierarchy.Construction
import Mixin.Proofs.Hierarchy.Editing
import Mixin.Proofs.Hierarchy.Reachability
import Mixin.Proofs.Hierarchy.Walk
import Mixin.Proofs.Host.Output
import Mixin.Proofs.Host.Rerun
import Mixin.Proofs.Json.Escapes
import Mixin.Proofs.Json.Locality
import Mixin.Proofs.Json.Naturality
import Mixin.Proofs.Json.NumeralLocality
import Mixin.Proofs.Json.Reading
import Mixin.Proofs.Json.RepeatedKeys
import Mixin.Proofs.Json.SingleLine
import Mixin.Proofs.Json.SkimLocality
import Mixin.Proofs.Json.SkimReading
import Mixin.Proofs.Json.Spacing
import Mixin.Proofs.Json.ValueLocality
import Mixin.Proofs.Mapping.Construction
import Mixin.Proofs.Mapping.Reloading
import Mixin.Proofs.Rule.Additions
import Mixin.Proofs.Rule.Ancestors
import Mixin.Proofs.Rule.Composition
import Mixin.Proofs.Rule.Grafting
import Mixin.Proofs.Rule.Lacking
import Mixin.Proofs.Rule.Renaming
import Mixin.Proofs.Rule.Reordering
import Mixin.Proofs.Rule.Settling
import Mixin.Proofs.Rule.Tracing
import Mixin.Proofs.Text.Quoting
import Mixin.Proofs.TypeName.Diagnosis
import Mixin.Proofs.TypeName.Grammar
import Mixin.Resolver
import Mixin.Rule
import Mixin.Table
import Mixin.Text.Blank
import Mixin.Text.Printable
import Mixin.Text.Quoted
import Mixin.TypeName
