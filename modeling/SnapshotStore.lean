import SnapshotStore.Connections
import SnapshotStore.Proofs.Store.Ledger
import SnapshotStore.Service
import SnapshotStore.Session.Trace
import SnapshotStore.Settings.Document
import SnapshotStore.Proofs.Store.Retention
import SnapshotStore.Proofs.Connection.Step
import SnapshotStore.Proofs.Group.Lineage
import SnapshotStore.Proofs.Group.Identity
import SnapshotStore.Proofs.Chronicle
import SnapshotStore.Proofs.World
import SnapshotStore.Proofs.Isolation
import SnapshotStore.Proofs.Arena
import SnapshotStore.Proofs.Connection.Quiet
import SnapshotStore.Proofs.Handle
import SnapshotStore.Proofs.Label
import SnapshotStore.Proofs.Label.Issue
import SnapshotStore.Proofs.Shelf
import SnapshotStore.Proofs.Session.Work
import SnapshotStore.Proofs.Connection.Handover
import SnapshotStore.Proofs.Session.Turn
import SnapshotStore.Proofs.Session.Perform
import SnapshotStore.Proofs.Session.Calls
import SnapshotStore.Proofs.Service.Notebook
import SnapshotStore.Proofs.Service.Run
import SnapshotStore.Proofs.Service.Target
import SnapshotStore.Proofs.Service.SchemaGuard
import SnapshotStore.Proofs.Service.Lasting
import SnapshotStore.Proofs.Service.HandleIdentity
import SnapshotStore.Proofs.Table.WellFormed
import SnapshotStore.Proofs.Group.WellFormed
import SnapshotStore.Proofs.Session.Edits
import SnapshotStore.Proofs.Service.WellFormed
import SnapshotStore.Proofs.Resources
import SnapshotStore.Proofs.Changes
import SnapshotStore.Proofs.Complaints
import SnapshotStore.Proofs.Connection.Answer
import SnapshotStore.Proofs.Connection.Run
import SnapshotStore.Proofs.Exports
import SnapshotStore.Proofs.Batches
import SnapshotStore.Proofs.Pins
import SnapshotStore.Proofs.Imports
import SnapshotStore.Proofs.Registry
import SnapshotStore.Proofs.Session.Envelopes
import SnapshotStore.Proofs.Session.Deliveries
import SnapshotStore.Proofs.Service.Envelopes
import SnapshotStore.Proofs.Service.WrongKind
import SnapshotStore.Proofs.History
import SnapshotStore.Proofs.Connection.Advance
import SnapshotStore.Proofs.Service.Reports
import SnapshotStore.Proofs.Connection.Release
import SnapshotStore.Proofs.Connection.Epoch
import SnapshotStore.Proofs.Session.Lending
import SnapshotStore.Proofs.Service.Release
import SnapshotStore.Proofs.Session.Filing
import SnapshotStore.Proofs.Session.Detachment
import SnapshotStore.Proofs.Service.Detachment
import SnapshotStore.Proofs.Store.Outlasting
import SnapshotStore.Proofs.Connection.Outlasting
import SnapshotStore.Proofs.Session.Outlasting
import SnapshotStore.Proofs.Service.Outlasting
import SnapshotStore.Proofs.Group.Bounds
import SnapshotStore.Proofs.Session.Bounds
import SnapshotStore.Proofs.Connection.Faultless
import SnapshotStore.Proofs.Session.Faultless
import SnapshotStore.Proofs.Service.Bounds
import SnapshotStore.Proofs.Group.Columns
import SnapshotStore.Proofs.Group.Acceptance
import SnapshotStore.Proofs.Service.Heredity
import SnapshotStore.Proofs.Session.Acceptance
import SnapshotStore.Proofs.Service.Counting
import SnapshotStore.Proofs.Group.Refusal
import SnapshotStore.Proofs.Connection.Refusal
import SnapshotStore.Proofs.View
import SnapshotStore.Proofs.Session.Refusal
import SnapshotStore.Proofs.Service.Refusal
import SnapshotStore.Proofs.Arena.Record
import SnapshotStore.Proofs.Group.Links
import SnapshotStore.Proofs.Service.Links
import SnapshotStore.Proofs.Onward
import SnapshotStore.Proofs.Value.Order
import SnapshotStore.Proofs.View.Order
import SnapshotStore.Proofs.View.Rows
import SnapshotStore.Proofs.Arena.Turnover
import SnapshotStore.Proofs.Session.Stowing
import SnapshotStore.Proofs.Session.ViewRows
import SnapshotStore.Proofs.Service.Census
import SnapshotStore.Proofs.Query.Equality
import SnapshotStore.Proofs.Text.LetterCase
import SnapshotStore.Proofs.Query.LetterCase
import SnapshotStore.Proofs.View.Stable
import SnapshotStore.Proofs.View.Shaping
import SnapshotStore.Proofs.View.Sorting
import SnapshotStore.Proofs.View.Distinct
import SnapshotStore.Proofs.View.Settled
import SnapshotStore.Proofs.View.OpenEnd
import SnapshotStore.Proofs.Session.Reshaping
import SnapshotStore.Proofs.Service.OpenEnd
import SnapshotStore.Proofs.Group.Removal
import SnapshotStore.Proofs.Service.Removal
import SnapshotStore.Proofs.Table.Change
import SnapshotStore.Proofs.Table.Locator
import SnapshotStore.Proofs.Query.Windows
import SnapshotStore.Proofs.Service.Windows
import SnapshotStore.Proofs.Query.Aggregate
import SnapshotStore.Proofs.Service.Aggregate
import SnapshotStore.Proofs.Session.CellGuard
import SnapshotStore.Proofs.Service.CellGuard
import SnapshotStore.Proofs.Connection.Tally
import SnapshotStore.Proofs.Group.CellWrites
import SnapshotStore.Proofs.Session.CellHandles
import SnapshotStore.Proofs.Session.Tally
import SnapshotStore.Proofs.Service.CellWrites
import SnapshotStore.Proofs.Taking
import SnapshotStore.Proofs.Service.Taking
import SnapshotStore.Proofs.Group.Marks
import SnapshotStore.Proofs.Changeset
import SnapshotStore.Proofs.Service.Filters
import SnapshotStore.Proofs.Connection.MissedVersions
import SnapshotStore.Proofs.Service.MissedVersions
