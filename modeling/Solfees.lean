import Solfees.Core.Run
import Solfees.Core.Interleaving
import Solfees.Core.Recency
import Solfees.Core.Filling
import Solfees.Core.BinarySearch
import Solfees.Core.WordSum
import Solfees.Core.OrderStatistics
import Solfees.Core.Draining
import Solfees.Core.Window
import Solfees.Core.Journal
import Solfees.Core.Indexing
import Solfees.Core.Descent
import Solfees.Core.Broadcast
import Solfees.Core.Ring
import Solfees.Core.TrimmedLog
import Solfees.Core.Wiring
import Solfees.Core.Attempts
import Solfees.Core.Actors
import Solfees.Core.ActorQueue
import Solfees.Core.ActorAnswers
import Solfees.Core.ActorWaiting
import Solfees.Geyser.Message
import Solfees.Geyser.Transaction
import Solfees.Geyser.AccountRoles
import Solfees.Geyser.FeeParameters
import Solfees.Geyser.Stream
import Solfees.Geyser.Grouping
import Solfees.Geyser.Attachment
import Solfees.Geyser.Leaders
import Solfees.Geyser.Collecting
import Solfees.Geyser.FeeMonitor
import Solfees.Schedule.LeadersSchedule
import Solfees.Schedule.LeaderTable
import Solfees.Schedule.SolanaSchedule
import Solfees.Schedule.SingleFlight
import Solfees.Redis.Subscribe
import Solfees.Redis.Forwarding
import Solfees.Redis.Publishers
import Solfees.Redis.PublishLoop
import Solfees.Redis.StreamError
import Solfees.Redis.Transport
import Solfees.Redis.Delivery
import Solfees.Rpc.Json
import Solfees.Rpc.Fees
import Solfees.Rpc.FeePaths
import Solfees.Rpc.Percentiles
import Solfees.Rpc.AccountFilters
import Solfees.Rpc.AverageFee
import Solfees.Rpc.LatestBlockhashStorage
import Solfees.Rpc.UpdateLoop
import Solfees.Rpc.OnRequest
import Solfees.Rpc.Eviction
import Solfees.Rpc.EvictionLoop
import Solfees.Rpc.WellOrdered
import Solfees.Rpc.PointerSafety
import Solfees.Rpc.Rollback
import Solfees.Rpc.GreedyRollback
import Solfees.Rpc.FinalizedRollback
import Solfees.Rpc.ForkRollback
import Solfees.Rpc.FinalizedCounter
import Solfees.Rpc.SnapshotReplay
import Solfees.Rpc.MessageJournal
import Solfees.Rpc.CommitmentOrder
import Solfees.Rpc.SlotOrder
import Solfees.Rpc.NestedPointers
import Solfees.Rpc.RequestSafety
import Solfees.Rpc.StoreAgreement
import Solfees.Rpc.RecentWindow
import Solfees.Rpc.BatchResponses
import Solfees.Rpc.Server
import Solfees.Rpc.ServerRuns
import Solfees.Rpc.WebSocket
import Solfees.Rpc.SubscriptionFrames
import Solfees.Rpc.Hub
import Solfees.Rpc.HubRuns
import Solfees.Rpc.SnapshotSync
import Solfees.Rpc.Validation
import Solfees.Backend.Main
import Solfees.Backend.EndToEnd
import Solfees.Backend.CatchUp
import Solfees.Backend.Origin
import Solfees.Backend.Channels
