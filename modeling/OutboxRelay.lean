import OutboxRelay.Breaker
import OutboxRelay.Breaker.Session
import OutboxRelay.Broker.ActiveMq
import OutboxRelay.Broker.Letter
import OutboxRelay.Broker.Publisher
import OutboxRelay.Broker.Script
import OutboxRelay.DeadLetter
import OutboxRelay.DeadLetter.Guard
import OutboxRelay.Dispatch.Batch
import OutboxRelay.Dispatch.Cycle
import OutboxRelay.Dispatch.Delivery
import OutboxRelay.Dispatch.Delivery.Progress
import OutboxRelay.Dispatch.Poller
import OutboxRelay.Dispatch.Relay
import OutboxRelay.Dispatch.Session
import OutboxRelay.Dispatch.Trial
import OutboxRelay.Duration
import OutboxRelay.Event
import OutboxRelay.Headers
import OutboxRelay.Http.Response
import OutboxRelay.Http.Routes
import OutboxRelay.Journal
import OutboxRelay.Outgoing
import OutboxRelay.Proofs.Breaker.Cooldown
import OutboxRelay.Proofs.Breaker.FailureCount
import OutboxRelay.Proofs.Breaker.NoWedge
import OutboxRelay.Proofs.Breaker.Run
import OutboxRelay.Proofs.Breaker.TrialCall
import OutboxRelay.Proofs.Broker.FailedLetter
import OutboxRelay.Proofs.Broker.MessagePath
import OutboxRelay.Proofs.Broker.MessageQuery
import OutboxRelay.Proofs.DeadLetter.Circulation
import OutboxRelay.Proofs.DeadLetter.CorrelationId
import OutboxRelay.Proofs.DeadLetter.Diagnostics
import OutboxRelay.Proofs.DeadLetter.JmsGuard
import OutboxRelay.Proofs.DeadLetter.KafkaGuard
import OutboxRelay.Proofs.DeadLetter.Position
import OutboxRelay.Proofs.Dispatch.Acceptance
import OutboxRelay.Proofs.Dispatch.Accounts
import OutboxRelay.Proofs.Dispatch.Alike
import OutboxRelay.Proofs.Dispatch.Alone
import OutboxRelay.Proofs.Dispatch.AnyWidth
import OutboxRelay.Proofs.Dispatch.Attempts
import OutboxRelay.Proofs.Dispatch.BatchMoves
import OutboxRelay.Proofs.Dispatch.CallLog
import OutboxRelay.Proofs.Dispatch.Calm
import OutboxRelay.Proofs.Dispatch.Chronicle
import OutboxRelay.Proofs.Dispatch.CooldownLaw
import OutboxRelay.Proofs.Dispatch.Course
import OutboxRelay.Proofs.Dispatch.DeadLetterWait
import OutboxRelay.Proofs.Dispatch.DeliveryStep
import OutboxRelay.Proofs.Dispatch.Errands
import OutboxRelay.Proofs.Dispatch.Exclusion
import OutboxRelay.Proofs.Dispatch.FairTurns
import OutboxRelay.Proofs.Dispatch.History
import OutboxRelay.Proofs.Dispatch.Keeping
import OutboxRelay.Proofs.Dispatch.OneByOne
import OutboxRelay.Proofs.Dispatch.Openings
import OutboxRelay.Proofs.Dispatch.PollerTurns
import OutboxRelay.Proofs.Dispatch.Reach
import OutboxRelay.Proofs.Dispatch.RecordKeys
import OutboxRelay.Proofs.Dispatch.Refusal
import OutboxRelay.Proofs.Dispatch.Roster
import OutboxRelay.Proofs.Dispatch.RowStatus
import OutboxRelay.Proofs.Dispatch.SharedHeaders
import OutboxRelay.Proofs.Dispatch.Solo
import OutboxRelay.Proofs.Dispatch.StopWord
import OutboxRelay.Proofs.Dispatch.Ticks
import OutboxRelay.Proofs.Dispatch.TimeLimit
import OutboxRelay.Proofs.Dispatch.Timing
import OutboxRelay.Proofs.Dispatch.Twin
import OutboxRelay.Proofs.Dispatch.Wakeful
import OutboxRelay.Proofs.Dispatch.WholeCycle
import OutboxRelay.Proofs.Dispatch.Width
import OutboxRelay.Proofs.Outgoing.Completion
import OutboxRelay.Proofs.Outgoing.DrawnContext
import OutboxRelay.Proofs.Outgoing.Identifiers
import OutboxRelay.Proofs.Outgoing.TraceContext
import OutboxRelay.Proofs.Retry.Delays
import OutboxRelay.Proofs.Retry.LastAttempt
import OutboxRelay.Proofs.Startup.FailedStart
import OutboxRelay.Proofs.Store.Agreement
import OutboxRelay.Proofs.Store.ClaimAnswer
import OutboxRelay.Proofs.Store.Claiming
import OutboxRelay.Proofs.Store.HeaderColumn
import OutboxRelay.Proofs.Store.HeaderReader
import OutboxRelay.Proofs.Store.HeaderSyntax
import OutboxRelay.Proofs.Store.HeaderTrip
import OutboxRelay.Proofs.Store.InsertTransaction
import OutboxRelay.Proofs.Store.Ledger
import OutboxRelay.Proofs.Store.LifeCycle
import OutboxRelay.Proofs.Store.SharedTable
import OutboxRelay.Proofs.Store.StaleClaims
import OutboxRelay.Proofs.Store.TableCommands
import OutboxRelay.Proofs.Text.Utf8
import OutboxRelay.Proofs.Url.Form
import OutboxRelay.Proofs.Url.Path
import OutboxRelay.Proofs.Url.Percent
import OutboxRelay.Proofs.Url.Reading
import OutboxRelay.PublishError
import OutboxRelay.Retry
import OutboxRelay.Retry.Rehearsal
import OutboxRelay.Settings
import OutboxRelay.Settings.Reader
import OutboxRelay.Sql.Command
import OutboxRelay.Sql.Database
import OutboxRelay.Sql.Schema
import OutboxRelay.Sql.Script
import OutboxRelay.Sql.Table
import OutboxRelay.Startup
import OutboxRelay.Startup.Service
import OutboxRelay.Store
import OutboxRelay.Store.HeaderBlob
import OutboxRelay.Store.Memory
import OutboxRelay.Store.Sql
import OutboxRelay.Store.Trial
import OutboxRelay.StoreError
import OutboxRelay.Text.Blank
import OutboxRelay.Text.Digits
import OutboxRelay.Text.Hex
import OutboxRelay.Text.Pieces
import OutboxRelay.Text.Quoted
import OutboxRelay.Text.Utf8
import OutboxRelay.Timestamp
import OutboxRelay.Timestamp.Rfc3339
import OutboxRelay.Url
import OutboxRelay.Url.Domain
import OutboxRelay.Url.Form
import OutboxRelay.Url.Host
import OutboxRelay.Url.Percent
import OutboxRelay.Url.Punycode
import OutboxRelay.Uuid
