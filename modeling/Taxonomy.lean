import Taxonomy.Main
import Taxonomy.Render
import Taxonomy.Proofs.Composition.Session
import Taxonomy.Proofs.Schema.Fault
import Taxonomy.Proofs.Element.Compile
import Taxonomy.Proofs.Composition.Success
import Taxonomy.Proofs.Composition.Cycle
import Taxonomy.Proofs.NameMap
import Taxonomy.Proofs.Registry.Build
import Taxonomy.Proofs.RecordId
import Taxonomy.Proofs.Decimal.Value
import Taxonomy.Proofs.Field.Check
import Taxonomy.Proofs.Element.Facets
import Taxonomy.Proofs.Element.Domain
import Taxonomy.Proofs.Composition.Columns
import Taxonomy.Proofs.Usage.Index
import Taxonomy.Proofs.Registry.Usage
import Taxonomy.Proofs.Usage.Scan
import Taxonomy.Proofs.Composition.Override
import Taxonomy.Proofs.Composition.Footprint
import Taxonomy.Proofs.Registry.Coherence
import Taxonomy.Proofs.Schema.Load
import Taxonomy.Proofs.Render
import Taxonomy.Proofs.Render.Visits
import Taxonomy.Proofs.Schema.KeyOrder
import Taxonomy.Proofs.Schema.Layout
import Taxonomy.Proofs.Field.RoundTrip
import Taxonomy.Proofs.Json.Number
import Taxonomy.Proofs.Json.Token
import Taxonomy.Proofs.Json.Reader
import Taxonomy.Proofs.Json.Record
import Taxonomy.Proofs.Field.Encoding
import Taxonomy.Proofs.Element.Encoding
import Taxonomy.Proofs.Usage.Encoding
import Taxonomy.Proofs.Encoding
import Taxonomy.Proofs.ItemType.Reading
import Taxonomy.Proofs.Element.Outcome
import Taxonomy.Proofs.Composition.Partition
import Taxonomy.Proofs.Element.Choices
import Taxonomy.Proofs.Field.Verdict
import Taxonomy.Proofs.Calendar.Timestamp
import Taxonomy.Proofs.Field.Instant
import Taxonomy.Proofs.Decimal.Rounding
import Taxonomy.Proofs.Composition.PropertyBody
import Taxonomy.Proofs.Decimal.Numeral
import Taxonomy.Proofs.Field.Submission
import Taxonomy.Proofs.Element.Identifier
import Taxonomy.Proofs.Element.Grouping
import Taxonomy.Proofs.Composition.Count
import Taxonomy.Proofs.Schema.Shape
import Taxonomy.Proofs.Schema.Inheritance
import Taxonomy.Proofs.Field.Day
import Taxonomy.Proofs.Composition.Depth
import Taxonomy.Proofs.CommandLine.Overrides
import Taxonomy.Proofs.Yaml.Subset
import Taxonomy.Proofs.Yaml.Reader
