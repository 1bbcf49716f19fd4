import RexMq.ByteWords
import RexMq.FiniteRun
import RexMq.FailingOps
import RexMq.SelfDelimiting
import RexMq.RelationIndex
import RexMq.FrameData
import RexMq.FrameParser
import RexMq.FrameStream
import RexMq.FrameFields
import RexMq.AckPacket
import RexMq.ClientRegistry
import RexMq.RegistryIndex
import RexMq.PersistentStore
import RexMq.ServerState
import RexMq.ServerSweeps
import RexMq.Handlers
import RexMq.HandlerEffects
import RexMq.FrameAccess
import RexMq.ServerRun
import RexMq.ClientIdentity
import RexMq.SessionTakeover
import RexMq.SessionRows
import RexMq.RemovalPaths
import RexMq.CancelTokens
import RexMq.MultiTitles
import RexMq.UnknownCommands
import RexMq.PublishTrace
import RexMq.PublishOutcome
import RexMq.CastCleanup
import RexMq.GroupFairness
import RexMq.AckResolution
import RexMq.LoginTitles
import RexMq.ByteCodec
import RexMq.ClusterMessages
import RexMq.ServerConfig
import RexMq.AckTimeout
import RexMq.ClusterFraming
import RexMq.ClockwiseSearch
import RexMq.RouteTable
import RexMq.RingOwnership
import RexMq.RingMembers
import RexMq.RingReplicas
import RexMq.RingSerialization
import RexMq.RouteSync
import RexMq.PeerForwarder
import RexMq.ForwardOutcome
import RexMq.ClusterManager
import RexMq.ClusterPublish
import RexMq.ForwardedGroup
import RexMq.ClusterLoss
import RexMq.ClusterWiring
import RexMq.LinkNetwork
import RexMq.ClusterJoin
import RexMq.ClusterMembership
import RexMq.QueueIndex
import RexMq.OfflineQueues
import RexMq.OfflineIsolation
import RexMq.OfflinePolicy
import RexMq.OfflineDrain
import RexMq.OfflineRace
import RexMq.FailedEnqueue
import RexMq.GhostMirror
import RexMq.RegistryRace
import RexMq.ClientProcess
import RexMq.TitleAgreement
import RexMq.TitleRestore
import RexMq.PendingAcks
import RexMq.ClientLink
import RexMq.HeartbeatRounds
import RexMq.IdleReaping
import RexMq.SentFrames
import RexMq.StarNetwork
import RexMq.FrameNetwork
import RexMq.SeatedClients
import RexMq.MannedNetwork
import RexMq.AckOutcomes
import RexMq.MessageAccount
import RexMq.AckRoundTrip
import RexMq.LossyLine
import RexMq.PublishOrder
import RexMq.TopicDesk
import RexMq.BrokerRefinement
import RexMq.AskedTitles
import RexMq.ListWeights
import RexMq.ServerHost
import RexMq.GracefulShutdown
import RexMq.HealthyClient
