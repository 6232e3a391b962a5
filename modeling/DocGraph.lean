import DocGraph.Main
import DocGraph.Pattern.Reader
import DocGraph.Store.Sharing
import DocGraph.Text.Identifier
import DocGraph.Proofs.Resolution.Derivation
import DocGraph.Proofs.Resolution.Marks
import DocGraph.Proofs.Resolution.Survivors
import DocGraph.Proofs.Resolution.Necessity
import DocGraph.Proofs.Resolution.Lists
import DocGraph.Proofs.Resolution.Idempotence
import DocGraph.Proofs.Resolution.Dependents
import DocGraph.Proofs.Rule.Evaluation
import DocGraph.Proofs.Rule.Order
import DocGraph.Proofs.Rule.Effects
import DocGraph.Proofs.Rule.Halts
import DocGraph.Proofs.Resolution.Repetition
import DocGraph.Proofs.Record.Fields
import DocGraph.Proofs.Rule.Ownership
import DocGraph.Proofs.Rule.Reporting
import DocGraph.Proofs.Interpretation.Reordering
import DocGraph.Proofs.Interpretation.UnknownTags
import DocGraph.Proofs.Store.Identities
import DocGraph.Proofs.Intake.References
import DocGraph.Proofs.Comment.RoundTrip
import DocGraph.Proofs.Descriptor.RoundTrip
import DocGraph.Proofs.Descriptor.Alternatives
import DocGraph.Proofs.Descriptor.Outcome
import DocGraph.Proofs.Descriptor.Naming
import DocGraph.Proofs.Interpretation.Listings
import DocGraph.Proofs.Interpretation.Repeats
import DocGraph.Proofs.Resolution.Frame
import DocGraph.Proofs.Intake.Plain
import DocGraph.Proofs.Report.Writable
import DocGraph.Proofs.Comment.Blocks
import DocGraph.Proofs.Interpretation.Longnames
import DocGraph.Proofs.Interpretation.Mentions
import DocGraph.Proofs.Resolution.CommonDirectory
import DocGraph.Proofs.Store.Visits
import DocGraph.Proofs.Literal.RoundTrip
import DocGraph.Proofs.Store.Sharing
import DocGraph.Proofs.Store.InPlace
import DocGraph.Proofs.Store.Selections
import DocGraph.Proofs.Resolution.Ancestry
