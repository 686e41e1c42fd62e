import ForexCopy.Library.Machine
import ForexCopy.Library.Table
import ForexCopy.Library.Tasks
import ForexCopy.Library.Decimal
import ForexCopy.Library.Holdings
import ForexCopy.Library.Numerals
import ForexCopy.Library.Compaction
import ForexCopy.Library.Custody
import ForexCopy.Library.Grid
import ForexCopy.Library.Grouping
import ForexCopy.Library.Utf16
import ForexCopy.Library.DecimalText
import ForexCopy.Library.Json
import ForexCopy.Library.JsonRead
import ForexCopy.Library.Schema
import ForexCopy.Library.Calendar
import ForexCopy.Library.IsoTime
import ForexCopy.Library.Search
import ForexCopy.Library.ChangeFeed
import ForexCopy.Library.Trail
import ForexCopy.Library.Sessions
import ForexCopy.Backend.Schema
import ForexCopy.Backend.VolumeCalculator
import ForexCopy.Backend.RiskChecks
import ForexCopy.Backend.CopyOrderQueries
import ForexCopy.Backend.World
import ForexCopy.Backend.Task
import ForexCopy.Backend.CopyEngine
import ForexCopy.Backend.ConnectorPolling
import ForexCopy.Backend.Ingest
import ForexCopy.Backend.Connectors
import ForexCopy.Backend.System
import ForexCopy.Backend.ReconciliationEngine
import ForexCopy.Backend.Reconciliation
import ForexCopy.Backend.Portal
import ForexCopy.Backend.Administration
import ForexCopy.Backend.Gateway
import ForexCopy.Dashboard.Broadcasts
import ForexCopy.Dashboard.TradesPage
import ForexCopy.Slave.PollingEa
import ForexCopy.Slave.Terminal
import ForexCopy.Slave.Serial
import ForexCopy.Slave.Concurrent
import ForexCopy.Slave.Reconciled
import ForexCopy.Master.TradeEventCall
import ForexCopy.Master.Mt4Ea
import ForexCopy.Master.Mt5Ea
import ForexCopy.Wire.Strings
import ForexCopy.Wire.JsonBuilder
import ForexCopy.Wire.JsonReader
import ForexCopy.Wire.TradeEvents
import ForexCopy.Wire.ExecutionResults
import ForexCopy.Slave.Mt4Ea
import ForexCopy.Slave.Mt5Service
import ForexCopy.Http.RetryQueue
import ForexCopy.Http.RetryLoop
import ForexCopy.Proof.Sizing
import ForexCopy.Proof.Step
import ForexCopy.Proof.Rows
import ForexCopy.Proof.Grounded
import ForexCopy.Proof.Slaves
import ForexCopy.Proof.Admission
import ForexCopy.Proof.Dispatch
import ForexCopy.Proof.DispatchOrder
import ForexCopy.Proof.Ingest
import ForexCopy.Proof.EmergencyStop
import ForexCopy.Proof.Polling.Once
import ForexCopy.Proof.Polling.Pickup
import ForexCopy.Proof.Orders.OpenSet
import ForexCopy.Proof.Orders.Lifecycle
import ForexCopy.Proof.Limits.Writers
import ForexCopy.Proof.Limits.Commitments
import ForexCopy.Proof.Limits.Room
import ForexCopy.Proof.Limits.Summary
import ForexCopy.Proof.Terminal.Alone
import ForexCopy.Proof.Recording
import ForexCopy.Proof.Polling.Rebuild
import ForexCopy.Proof.FanOut.Stages
import ForexCopy.Proof.FanOut.Complete
import ForexCopy.Proof.FanOut.Gates
import ForexCopy.Proof.Terminal.Mirror
import ForexCopy.Proof.Terminal.Results
import ForexCopy.Proof.Terminal.Faithful
import ForexCopy.Proof.Terminal.Transport
import ForexCopy.Proof.Terminal.Tickets
import ForexCopy.Proof.Terminal.TradeIdentity
import ForexCopy.Proof.Terminal.Evidence
import ForexCopy.Proof.Terminal.Orphans
import ForexCopy.Proof.Terminal.Given
import ForexCopy.Proof.Master.Changes
import ForexCopy.Proof.Master.Diff
import ForexCopy.Proof.Master.Histories
import ForexCopy.Proof.Master.EventIds
import ForexCopy.Proof.Reconciliation.Clean
import ForexCopy.Proof.Reconciliation.Warranted
import ForexCopy.Proof.Reconciliation.Stops
import ForexCopy.Proof.Reconciliation.Replacement
import ForexCopy.Proof.Reconciliation.FalseAlarms
import ForexCopy.Proof.Http.Accounts
import ForexCopy.Proof.Http.Order
import ForexCopy.Proof.Http.Pass
import ForexCopy.Proof.Portal.Frames
import ForexCopy.Proof.Portal.Backing
import ForexCopy.Proof.Portal.Isolation
import ForexCopy.Proof.Portal.Acknowledged
import ForexCopy.Proof.Portal.Wiring
import ForexCopy.Proof.Portal.Liveness
import ForexCopy.Proof.Gateway
import ForexCopy.Proof.Portal.Sockets
import ForexCopy.Proof.Wire.Builder
import ForexCopy.Proof.Wire.Reader
import ForexCopy.Proof.Wire.Messages
import ForexCopy.Proof.Wire.TradeEvents
import ForexCopy.Proof.Wire.ExecutionResults
import ForexCopy.Proof.Terminal.Settled
import ForexCopy.Proof.Wire.Mt4Slave
import ForexCopy.Proof.Wire.Mt4Link
import ForexCopy.Proof.Dashboard.Broadcasts
import ForexCopy.Proof.Dashboard.Sockets
import ForexCopy.Proof.Dashboard.TradesPage
import ForexCopy.Proof.Dashboard.Rows
import ForexCopy.Proof.Administration.History
import ForexCopy.Proof.Administration.Census
import ForexCopy.Proof.Administration.Answers
import ForexCopy.Proof.Administration.Access
import ForexCopy.Proof.Service.Turns
import ForexCopy.Proof.Service.Truth
