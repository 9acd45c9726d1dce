import SyncServer.Client.Console
import SyncServer.Client.Upload
import SyncServer.Client.Workers
import SyncServer.Cluster.Joining
import SyncServer.Cluster.Ports
import SyncServer.Failover.ClientTakeover
import SyncServer.Failover.Heartbeats
import SyncServer.Failover.StaleAnswers
import SyncServer.Files.ClientStreams
import SyncServer.Files.Concurrent
import SyncServer.Files.FailedDeletion
import SyncServer.Files.FileHeap
import SyncServer.Files.Isolation
import SyncServer.Files.ListingBlock
import SyncServer.Files.Remainder
import SyncServer.Files.Replies
import SyncServer.Files.Shutdown
import SyncServer.Replication.ReplicatedClients
import SyncServer.Replication.Streams
import SyncServer.Server.LockOrder
import SyncServer.Server.NewLeader
import SyncServer.Server.PacketLengths
import SyncServer.Server.ReplicaHeap
import SyncServer.Sessions.ContextTable
import SyncServer.Sessions.FirstRead
import SyncServer.Sessions.Handshake
import SyncServer.Sessions.KnownSession
import SyncServer.Sessions.SharedContexts
import SyncServer.Sessions.Slots
import SyncServer.Wire.Codec
import SyncServer.Wire.Decoded
