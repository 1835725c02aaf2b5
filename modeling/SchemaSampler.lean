import SchemaSampler.Main
import SchemaSampler.Random.Cycle
import SchemaSampler.Proofs.DepthState
import SchemaSampler.Proofs.Descent
import SchemaSampler.Proofs.Outcome
import SchemaSampler.Proofs.MemoSoundness
import SchemaSampler.Proofs.Tables
import SchemaSampler.Proofs.Walk
import SchemaSampler.Proofs.Calls
import SchemaSampler.Proofs.Query.Grammar
import SchemaSampler.Proofs.Query.Recognition
import SchemaSampler.Proofs.Query.Documents
import SchemaSampler.Proofs.Query.Refusals
import SchemaSampler.Proofs.Query.Groups
import SchemaSampler.Proofs.Query.Interchange
import SchemaSampler.Proofs.Query.Comments
import SchemaSampler.Proofs.Query.Spreads
import SchemaSampler.Proofs.Query.Keywords
import SchemaSampler.Proofs.ResultShape
import SchemaSampler.Proofs.Acceptance
import SchemaSampler.Proofs.Conformance
import SchemaSampler.Proofs.Locality
import SchemaSampler.Proofs.Wrapping
import SchemaSampler.Proofs.CompleteSelection
import SchemaSampler.Proofs.OperationOutcome
import SchemaSampler.Proofs.Validity
import SchemaSampler.Proofs.Detail
import SchemaSampler.Proofs.Session
import SchemaSampler.Proofs.Query.Checked
import SchemaSampler.Proofs.Drawable
import SchemaSampler.Proofs.Json.Spelling
import SchemaSampler.Proofs.SelectionLocality
import SchemaSampler.Proofs.SpentLists
import SchemaSampler.Proofs.Json.ReadBack
import SchemaSampler.Proofs.SchemaText
import SchemaSampler.Proofs.Limits
import SchemaSampler.Proofs.SingleQueries
import SchemaSampler.Proofs.Denotation
import SchemaSampler.Proofs.DocumentJson
import SchemaSampler.Proofs.TypeNames
import SchemaSampler.Proofs.RegistryViews
import SchemaSampler.Proofs.SelectionText
import SchemaSampler.Proofs.Lines
import SchemaSampler.Proofs.CanonicalState
import SchemaSampler.Proofs.MemoGrowth
