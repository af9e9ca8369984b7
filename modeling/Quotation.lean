import Quotation.Main
import Quotation.Proofs.Citation.RoundTrip
import Quotation.Proofs.Segment.Segmentation
import Quotation.Proofs.Tree.Reading
import Quotation.Proofs.Citation.Grammar
import Quotation.Proofs.Resolution.FirstFailure
import Quotation.Proofs.Check.Agreement
import Quotation.Proofs.Charset.RoundTrip
import Quotation.Proofs.Text.Layout
import Quotation.Proofs.Text.Lines
import Quotation.Proofs.Tree.Faults
import Quotation.Proofs.Tree.Growth
import Quotation.Proofs.Resolution.Characters
import Quotation.Proofs.Resolution.Written
import Quotation.Proofs.Resolution.Depth
import Quotation.Proofs.Resolution.Endless
import Quotation.Proofs.Resolution.Escalation
import Quotation.Proofs.Resolution.Layers
import Quotation.Proofs.Batch.KeepGoing
import Quotation.Proofs.Batch.Output
import Quotation.Proofs.Batch.Independence
import Quotation.Proofs.Batch.InPlace
import Quotation.Proofs.Resolution.WaysIn
import Quotation.Proofs.Tree.SameFile
import Quotation.Proofs.Resolution.CitingFile
import Quotation.Proofs.Tree.Clearance
import Quotation.Proofs.Resolution.Dangling
import Quotation.Proofs.Batch.Unchanged
import Quotation.Proofs.Resolution.Settings
import Quotation.Proofs.Batch.Surroundings
import Quotation.Proofs.Batch.Destination
import Quotation.Proofs.Batch.Containment
import Quotation.Proofs.Batch.Apart
import Quotation.Proofs.Discovery.Exactness
import Quotation.Proofs.Command.Modes
import Quotation.Proofs.Command.Collected
import Quotation.Proofs.Command.Output
import Quotation.Proofs.Tree.Again
import Quotation.Proofs.Batch.Again
import Quotation.Proofs.Command.Again
import Quotation.Proofs.Citation.Spelling
import Quotation.Proofs.Check.Findings
import Quotation.Proofs.Resolution.Prose
import Quotation.Proofs.Check.Strict
import Quotation.Proofs.Batch.Undecodable
import Quotation.Proofs.Citation.Marker
import Quotation.Proofs.Resolution.Malformed
import Quotation.Proofs.Resolution.Shortcut
import Quotation.Proofs.Text.Search
import Quotation.Proofs.Excerpt.Range
import Quotation.Proofs.Excerpt.Pattern
import Quotation.Proofs.Tree.Kinds
import Quotation.Proofs.Resolution.Inert
import Quotation.Proofs.Resolution.Statistics
import Quotation.Proofs.Text.Margin
import Quotation.Proofs.Text.Entity
import Quotation.Proofs.Tree.Whole
import Quotation.Proofs.Tree.Rewriting
import Quotation.Proofs.Batch.Rewriting
import Quotation.Proofs.Command.Selection
import Quotation.Proofs.Report.Markup
