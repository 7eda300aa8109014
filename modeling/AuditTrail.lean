import AuditTrail.Ledger
import AuditTrail.Replay.Engine
import AuditTrail.Replay.TraceDiff
import AuditTrail.Settings.Load
import AuditTrail.Settings.Retention
import AuditTrail.Store.Backend
import AuditTrail.Store.Switchboard
import AuditTrail.Proofs.Chain.Heads
import AuditTrail.Proofs.Chain.Batches
import AuditTrail.Proofs.Recorder.Commits
import AuditTrail.Proofs.Canonical
import AuditTrail.Proofs.Chain.Commitment
import AuditTrail.Proofs.Ledger.Conservation
import AuditTrail.Proofs.Ledger.Lifetime
import AuditTrail.Proofs.Json.Quote
import AuditTrail.Proofs.Settings.Retention
import AuditTrail.Proofs.Json.Spelling
import AuditTrail.Proofs.Canonical.Decoding
import AuditTrail.Proofs.Canonical.Encoder
import AuditTrail.Proofs.Chain.Verdict
import AuditTrail.Proofs.Chain.Tampering
import AuditTrail.Proofs.Recorder.Stamps
import AuditTrail.Proofs.Chain.Appends
import AuditTrail.Proofs.Ledger.Refinement
import AuditTrail.Proofs.Ledger.Readiness
import AuditTrail.Proofs.Ledger.Moves
import AuditTrail.Proofs.Recorder.Attached
import AuditTrail.Proofs.Ledger.Halting
import AuditTrail.Proofs.Json.Printed
import AuditTrail.Proofs.Store.Lines
import AuditTrail.Proofs.Store.Appending
import AuditTrail.Proofs.Store.Equivalence
import AuditTrail.Proofs.Number.Rounding
import AuditTrail.Proofs.Number.Shortest
import AuditTrail.Proofs.Text.Digits
import AuditTrail.Proofs.Json.Literal
import AuditTrail.Proofs.Json.Reader
import AuditTrail.Proofs.Json.Depth
import AuditTrail.Proofs.Time.Timestamp
import AuditTrail.Proofs.Json.Record
import AuditTrail.Proofs.Event.Decoding
import AuditTrail.Proofs.Json.Extension
import AuditTrail.Proofs.Store.ReadBack
import AuditTrail.Proofs.Json.Normal
import AuditTrail.Proofs.Replay.Alignment
import AuditTrail.Proofs.Replay.Compiled
import AuditTrail.Proofs.Replay.Derived
import AuditTrail.Proofs.Replay.Optional
import AuditTrail.Proofs.Chain.Sessions
import AuditTrail.Proofs.Chain.Ranges
import AuditTrail.Proofs.Store.Sessions
import AuditTrail.Proofs.Store.Ranges
import AuditTrail.Proofs.Store.Retained
import AuditTrail.Proofs.Store.Rollback
import AuditTrail.Proofs.Store.Pruned
import AuditTrail.Proofs.Ledger.Opened
import AuditTrail.Proofs.Ledger.Pruned
import AuditTrail.Proofs.Ledger.Flushes
import AuditTrail.Proofs.Event.Preimage
import AuditTrail.Proofs.Canonical.Reordered
import AuditTrail.Proofs.Json.Indented
import AuditTrail.Proofs.Json.Schema
import AuditTrail.Proofs.Json.Values
import AuditTrail.Proofs.Replay.Entries
import AuditTrail.Proofs.Replay.Format
import AuditTrail.Proofs.Replay.Reload
import AuditTrail.Proofs.Number.Value
import AuditTrail.Proofs.Number.Large
import AuditTrail.Proofs.Canonical.Numbers
import AuditTrail.Proofs.Canonical.Parts
import AuditTrail.Proofs.Canonical.Acceptance
import AuditTrail.Proofs.Canonical.Rereading
import AuditTrail.Proofs.Canonical.ReadBack
import AuditTrail.Proofs.Event.Numbers
import AuditTrail.Proofs.Event.Payload
import AuditTrail.Proofs.Chain.Turns
import AuditTrail.Proofs.Chain.Outstanding
import AuditTrail.Proofs.Ledger.Counters
import AuditTrail.Proofs.Recorder.Writes
import AuditTrail.Proofs.Chain.Counting
import AuditTrail.Proofs.Store.Counting
import AuditTrail.Proofs.Replay.Correlated
import AuditTrail.Proofs.Replay.Ignored
import AuditTrail.Proofs.Replay.Loosened
import AuditTrail.Proofs.Replay.Shape
import AuditTrail.Proofs.Replay.Unordered
import AuditTrail.Proofs.Replay.Restated
import AuditTrail.Proofs.Store.Gapless
import AuditTrail.Proofs.Store.Reopened
import AuditTrail.Proofs.Chain.Segments
import AuditTrail.Proofs.Chain.Divergence
import AuditTrail.Proofs.Replay.TraceDiff
import AuditTrail.Proofs.Canonical.Names
import AuditTrail.Proofs.Recorder.Grouping
