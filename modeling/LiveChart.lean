import LiveChart.Chart.Draft
import LiveChart.Chart.OptionHelp
import LiveChart.Chart.Suggest
import LiveChart.Chart.Summary
import LiveChart.Stream.Setup
import LiveChart.Value.Arrange
import LiveChart.Proofs.Number.Monotone
import LiveChart.Proofs.Temporal.Order
import LiveChart.Proofs.Value.KeyEquality
import LiveChart.Proofs.Temporal.Reading
import LiveChart.Proofs.Temporal.Groups
import LiveChart.Proofs.Temporal.Compaction
import LiveChart.Proofs.Stream.Effect
import LiveChart.Proofs.Stream.Delivery
import LiveChart.Proofs.Stream.Pace
import LiveChart.Proofs.Stream.Phase
import LiveChart.Proofs.Stream.Independence
import LiveChart.Proofs.Stream.Retention
import LiveChart.Proofs.Temporal.Agreement
import LiveChart.Proofs.Temporal.Chronicle
import LiveChart.Proofs.Stream.Arrival
import LiveChart.Proofs.Stream.Closing
import LiveChart.Proofs.Number.Limits
import LiveChart.Proofs.Temporal.Totality
import LiveChart.Proofs.Chart.Decoding
import LiveChart.Proofs.Chart.Compiled
import LiveChart.Proofs.Temporal.Instants
import LiveChart.Proofs.Chart.Wire
import LiveChart.Proofs.Chart.Lowering
import LiveChart.Proofs.Chart.Readability
import LiveChart.Proofs.Stream.Atomicity
import LiveChart.Proofs.Number.Whole
import LiveChart.Proofs.Temporal.Millis
import LiveChart.Proofs.Temporal.Winners
import LiveChart.Proofs.Temporal.Nesting
import LiveChart.Proofs.Value.Structure
import LiveChart.Proofs.Value.Arrays
import LiveChart.Proofs.Temporal.Representation
import LiveChart.Proofs.Stream.Accounting
import LiveChart.Proofs.Value.FieldOrder
import LiveChart.Proofs.Temporal.SameFields
import LiveChart.Proofs.Stream.Mirror
import LiveChart.Proofs.Stream.ColumnOrder
import LiveChart.Proofs.Text.QuotedBytes
import LiveChart.Proofs.Value.Kinds
import LiveChart.Proofs.Time.StampRange
import LiveChart.Proofs.Temporal.InstantOrder
import LiveChart.Proofs.Stream.Readback
import LiveChart.Proofs.Stream.Isolation
import LiveChart.Proofs.Number.Difference
import LiveChart.Proofs.Chart.Readings
import LiveChart.Proofs.Chart.Movement
import LiveChart.Proofs.Number.Places
import LiveChart.Proofs.Chart.Presentation
import LiveChart.Proofs.Chart.SharedOptions
import LiveChart.Proofs.Chart.Omission
import LiveChart.Proofs.Chart.Drafts
import LiveChart.Proofs.Chart.Suggestion
import LiveChart.Proofs.Time.CivilOrder
import LiveChart.Proofs.Temporal.Labels
import LiveChart.Proofs.Chart.Insertion
import LiveChart.Proofs.Stream.Admission
