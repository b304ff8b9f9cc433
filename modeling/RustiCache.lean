import RustiCache.ByteText
import RustiCache.DecimalNumerals
import RustiCache.RespValue
import RustiCache.RespParser
import RustiCache.RespRoundTrip
import RustiCache.FrameDecoders
import RustiCache.RespStability
import RustiCache.RespDecoder
import RustiCache.RespLocality
import RustiCache.ArrangedTables
import RustiCache.ShardedStore
import RustiCache.ShardedStoreContents
import RustiCache.ShardedStoreTotals
import RustiCache.ShardedStoreScans
import RustiCache.TimedMapRefinement
import RustiCache.StoreObservations
import RustiCache.ActionRuns
import RustiCache.ExpiryPurgeRaces
import RustiCache.ExpiryPurgeSafety
import RustiCache.ConcurrentStore
import RustiCache.ConcurrentStoreAccounting
import RustiCache.ConcurrentStoreInvariant
import RustiCache.ConcurrentStoreSequential
import RustiCache.AtomicObjects
import RustiCache.StoreLinearizability
import RustiCache.StoreProgress
import RustiCache.RunMoments
import RustiCache.KeyScans
import RustiCache.ConcurrentMemoryBound
import RustiCache.ClusterTopology
import RustiCache.ReplicationState
import RustiCache.CommandExecution
import RustiCache.ClientConnection
import RustiCache.ConnectionFraming
import RustiCache.AuthenticationGuard
import RustiCache.AuthenticationNoninterference
import RustiCache.UnguardedPsync
import RustiCache.ConnectionStreams
import RustiCache.ReplicaStream
import RustiCache.ReplicaReplay
import RustiCache.ReplicaAcknowledgements
import RustiCache.RelayedWrites
import RustiCache.ReplicatedWrites
import RustiCache.StreamReplays
import RustiCache.WriterRelays
import RustiCache.WriteOrderAgreement
import RustiCache.ReplicaHandshake
import RustiCache.ReplicationLink
import RustiCache.HandshakeReplies
import RustiCache.HandshakeReaders
import RustiCache.HandshakeLockStep
import RustiCache.HandshakeWires
import RustiCache.HandshakeTurns
import RustiCache.HandshakeCompletion
import RustiCache.ReplicationHandshake
import RustiCache.ReplicaCount
import RustiCache.ClusterConfiguration
import RustiCache.SlotAssignment
import RustiCache.SlotRepresentations
import RustiCache.NodeIdentity
import RustiCache.SlotRouting
import RustiCache.ServerPool
import RustiCache.ServerPoolSteps
import RustiCache.SlotOwnership
import RustiCache.CommandWrites
import RustiCache.ReplicaDelivery
import RustiCache.ExactDelivery
import RustiCache.PropagationLog
import RustiCache.ReplicatedPool
import RustiCache.AttachedReplicas
import RustiCache.ReplicaLinks
import RustiCache.OffsetAgreement
import RustiCache.PropagatedWrites
import RustiCache.MirroredReplicas
import RustiCache.FullResync
import RustiCache.ReplicaServer
import RustiCache.ReplicaKeyspace
import RustiCache.ReplyFrames
import RustiCache.RequestRefusals
import RustiCache.CommandReplies
import RustiCache.SingleReplies
import RustiCache.ReadLoops
import RustiCache.ChunkingAgreement
import RustiCache.RecoveringLoops
import RustiCache.ReaderMoves
import RustiCache.ReadLoopRuns
import RustiCache.ConnectionReception
import RustiCache.ReplicaReception
import RustiCache.ReceptionAgreement
import RustiCache.ReplicasInTouch
import RustiCache.ChecksumDivision
import RustiCache.ShiftRegisters
import RustiCache.HashTags
import RustiCache.RunLengths
import RustiCache.SlotRangeReply
import RustiCache.StepwiseUpdates
import RustiCache.SlotUpdateAtomicity
import RustiCache.RemovalLoops
import RustiCache.EvictionRounds
import RustiCache.EvictionOrder
import RustiCache.MemoryBound
import RustiCache.NumeralGrammar
import RustiCache.RespGrammar
import RustiCache.CheckedOperations
import RustiCache.RespAcceptance
import RustiCache.CheckedParser
import RustiCache.ParserPanics
import RustiCache.DeclaredCounts
import RustiCache.GrammarAcceptance
import RustiCache.CheckedCommands
import RustiCache.CheckedExecution
import RustiCache.CommandPanics
import RustiCache.CommandBounds
import RustiCache.CommandSafety
import RustiCache.ParseErrors
import RustiCache.LoopRounds
import RustiCache.ParserProgress
import RustiCache.SetOptions
import RustiCache.ErrorReplies
import RustiCache.DeletionCounts
import RustiCache.SampledSweeps
import RustiCache.ExpiryReclamation
import RustiCache.SlotSpecifications
import RustiCache.FrameArrivals
import RustiCache.PayloadGuard
import RustiCache.HandshakeQuestions
import RustiCache.HandshakeProgress
import RustiCache.HandshakeRefusals
import RustiCache.IncrementalReaders
import RustiCache.HandshakeAcceptance
import RustiCache.ClusterRedirections
import RustiCache.ServerLifecycle
import RustiCache.ReplicaChains
import RustiCache.CommandTranscripts
import RustiCache.TrimmedLists
import RustiCache.TextLines
import RustiCache.DotenvFiles
import RustiCache.PasswordHolders
import RustiCache.PipelinedReplies
import RustiCache.SentCommands
import RustiCache.NodeListings
import RustiCache.SettledLinks
import RustiCache.LinkWork
import RustiCache.ReplicaCatchUp
import RustiCache.LateWrites
import RustiCache.LateCommands
import RustiCache.ReplicaExpiries
import RustiCache.PastStates
