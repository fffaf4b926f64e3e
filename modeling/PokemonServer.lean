import PokemonServer.Interleaving.Protocol
import PokemonServer.Interleaving.Path
import PokemonServer.Interleaving.Projection
import PokemonServer.Interleaving.Postconditions
import PokemonServer.RedisClient
import PokemonServer.RoomKeys
import PokemonServer.SharedConnection
import PokemonServer.ClientReplies
import PokemonServer.ClientContext
import PokemonServer.NodeRegistry
import PokemonServer.HandlerRuns
import PokemonServer.Metrics
import PokemonServer.SnapshotScan
import PokemonServer.CleanupRaces
import PokemonServer.TurnJudgement
import PokemonServer.CreationFailures
import PokemonServer.RoomDeletion
import PokemonServer.ObservedHandlers
import PokemonServer.HandlerOps
import PokemonServer.SessionHistory
import PokemonServer.Autoscaling
import PokemonServer.ScanPages
import PokemonServer.SnapshotPages
import PokemonServer.SnapshotRoundTrip
import PokemonServer.CleanupPages
import PokemonServer.RestartCleanup
import PokemonServer.RedisUrl
import PokemonServer.Startup
import PokemonServer.Pod
import PokemonServer.PodOps
import PokemonServer.Shutdown
import PokemonServer.RoomManager
import PokemonServer.RoomLock
import PokemonServer.RoomCapacity
import PokemonServer.RoomLedger
import PokemonServer.LockedPod
import PokemonServer.PodProtocol
import PokemonServer.Drain
import PokemonServer.RoomsClosed
import PokemonServer.BattleEngine
import PokemonServer.GameService
import PokemonServer.RoomProtocol
import PokemonServer.RoomLifecycle
import PokemonServer.RoomSession
import PokemonServer.RoomOwner
import PokemonServer.RoomCommands
import PokemonServer.RoomDuplicates
import PokemonServer.RoomIsolation
import PokemonServer.RoomSnapshot
import PokemonServer.RoomTurns
import PokemonServer.BattleService
import PokemonServer.SteppedPod
import PokemonServer.RedisIndependence
import PokemonServer.RedisExpiry
import PokemonServer.ShutdownProgress
import PokemonServer.MainThreads
