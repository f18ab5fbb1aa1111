import Xlfn.Lib.Machine
import Xlfn.Lib.Table
import Xlfn.Kernel.Quota
import Xlfn.Kernel.SealableCounter
import Xlfn.Kernel.DrainGate
import Xlfn.Kernel.DrainWait
import Xlfn.Kernel.TerminalGate
import Xlfn.Kernel.IdleSeal
import Xlfn.Kernel.GateErrand
import Xlfn.Kernel.ReplaceableSlot
import Xlfn.Kernel.Replacement
import Xlfn.Kernel.GenerationSlot
import Xlfn.Kernel.GenerationPhases
import Xlfn.Kernel.GenerationMoves
import Xlfn.Kernel.ReadDomain
import Xlfn.Kernel.Generations
import Xlfn.Kernel.Rotation
import Xlfn.Kernel.Retirement
import Xlfn.Kernel.Grace
import Xlfn.Subscription.Budget
import Xlfn.Subscription.BudgetConservation
import Xlfn.Subscription.Delivery
import Xlfn.Subscription.Catalog
import Xlfn.Subscription.CatalogWf
import Xlfn.Subscription.CatalogRuntime
import Xlfn.Subscription.CatalogInvariant
import Xlfn.Subscription.CatalogReservations
import Xlfn.Subscription.Channel
import Xlfn.Subscription.ChannelOrder
import Xlfn.Subscription.DataPlane
import Xlfn.Subscription.Notification
import Xlfn.Subscription.Machine
import Xlfn.Subscription.Shard
import Xlfn.Subscription.Accounting
import Xlfn.Subscription.Sections
import Xlfn.Subscription.Effects
import Xlfn.Subscription.Inversion
import Xlfn.Subscription.Topics
import Xlfn.Subscription.TopicOrder
import Xlfn.Subscription.Control
import Xlfn.Subscription.Lifecycle
import Xlfn.Subscription.BatchPublish
import Xlfn.Subscription.Ownership
import Xlfn.Subscription.Invariant
import Xlfn.Subscription.Ordering
import Xlfn.Subscription.Collection
import Xlfn.Subscription.AcceptedValues
import Xlfn.Subscription.RefreshAbort
import Xlfn.Lib.Unwind
import Xlfn.Subscription.Publication
import Xlfn.Subscription.PublicationLedger
import Xlfn.Subscription.PublicationHandoff
import Xlfn.Subscription.Connect
import Xlfn.Subscription.ConnectRollback
import Xlfn.Subscription.Wakeup
import Xlfn.Subscription.Publisher
import Xlfn.Subscription.PublisherTurns
import Xlfn.Subscription.Disconnect
import Xlfn.Subscription.DisconnectCapacity
import Xlfn.Subscription.Multiplex
import Xlfn.Subscription.MultiplexControl
import Xlfn.Cache.Coordination
import Xlfn.Cache.Flights
import Xlfn.Cache.Accesses
import Xlfn.Cache.SingleFlight
import Xlfn.Cache.Epochs
import Xlfn.Cache.PendingWeight
import Xlfn.Cache.Maintenance
import Xlfn.Cache.EndpointMemo
import Xlfn.Cache.EndpointTransparency
import Xlfn.Lib.Hex
import Xlfn.Lib.PrefixCode
import Xlfn.Lib.OrderedTable
import Xlfn.Handle.Token
import Xlfn.Handle.TokenFormat
import Xlfn.Kernel.GateClient
import Xlfn.Ingress.Export
import Xlfn.Ingress.ExportWf
import Xlfn.Ingress.ExportDrain
import Xlfn.Ingress.ExportOpening
import Xlfn.Handle.Object
import Xlfn.Handle.ObjectLifetime
import Xlfn.Handle.ObjectQuiescence
import Xlfn.Handle.Binding
import Xlfn.Handle.BindingIdentity
import Xlfn.Handle.BindingLookup
import Xlfn.Async.Cancellation
import Xlfn.Async.CancellationScope
import Xlfn.Async.CancellationWaiters
import Xlfn.Input.Identity
import Xlfn.Input.IdentityInjective
import Xlfn.ReturnAbi.Numeric
import Xlfn.ReturnAbi.NumericLedger
import Xlfn.ReturnAbi.NumericEpochs
import Xlfn.Lib.Buffer
import Xlfn.Lib.Utf16
import Xlfn.Lib.Ascii
import Xlfn.Text.Utf16Decoder
import Xlfn.Text.CountedEncoding
import Xlfn.Text.FunctionName
import Xlfn.Lib.Gregorian
import Xlfn.Value.Date
import Xlfn.Value.DateCalendar
import Xlfn.Lib.Radix
import Xlfn.Subscription.Transport
import Xlfn.Subscription.TopicParts
import Xlfn.Handle.TokenText
import Xlfn.Handle.PreparationRollback
import Xlfn.Package.Names
import Xlfn.Package.Snapshot
import Xlfn.Package.SnapshotReads
import Xlfn.Package.SnapshotCapture
import Xlfn.Package.SnapshotExact
import Xlfn.Subscription.Admission
import Xlfn.Subscription.AdmissionExact
import Xlfn.Subscription.SourceWorker
import Xlfn.Subscription.SourceWorkerOwnership
import Xlfn.Lib.Fallible
import Xlfn.Lib.PathTree
import Xlfn.Distribution.World
import Xlfn.Distribution.Transaction
import Xlfn.Distribution.Recovery
import Xlfn.Distribution.Commit
import Xlfn.Distribution.Frames
import Xlfn.Distribution.Operations
import Xlfn.Distribution.Outcome
import Xlfn.Distribution.RecoveryFrame
import Xlfn.Distribution.Isolation
import Xlfn.ReturnAbi.Storage
import Xlfn.ReturnAbi.Slot
import Xlfn.Lib.TextCut
import Xlfn.Diagnostics.Text
import Xlfn.Package.PeInfo
import Xlfn.Package.Forwarding
import Xlfn.Package.Dependencies
import Xlfn.Package.Exports
import Xlfn.Diagnostics.History
import Xlfn.Diagnostics.LogRotation
import Xlfn.Input.IdentityChunks
import Xlfn.Cache.DeferredDrop
