import PokemonServer.Interleaving.Path
import PokemonServer.Metrics

/-!
# The process of one server

GameServer after Start: the gRPC handlers, the heartbeat thread, the metrics thread
and GracefulShutdown, interleaved at their calls, with the other clients of the same
Redis. A thread's loop is cut off after a given number of turns; a thread that is
cut off has not returned, so it cannot be joined.
-/

namespace PokemonServer
open Interleaving RedisClient

inductive Worker where
  | heartbeat
  | metrics
  deriving DecidableEq

/-- A std::thread: started, run by the scheduler, returned, joined. -/
inductive ThreadState where
  | created
  | running
  | finished
  | joined
  deriving DecidableEq

structure Pod (sim : Simulator) where
  server : ServerState sim Store
  running : Worker → Bool
  thread : Worker → ThreadState
  hasServer : Bool
  accepting : Bool
  inFlight : ℕ

inductive PodOp where
  | server (op : ServerOp)
  | setMaintenanceMode (isMaintaining : Bool)
  | getAllRooms
  | sleep
  | loadRunning (w : Worker)
  | clearRunning (w : Worker)
  | enter (w : Worker)
  | leave (w : Worker)
  | joinable (w : Worker)
  | join (w : Worker)
  | accept
  | respond
  | hasServer
  | shutdown
  | awaitHandlers
  | resetServer

abbrev PodOp.Res : PodOp → Type
  | .server op => op.Res
  | .getAllRooms => List String
  | .loadRunning _ | .joinable _ | .hasServer => Bool
  | _ => Unit

/-- What select and the connection behind it bring in one turn of the metrics loop. -/
inductive MetricsTurn where
  | nothing
  | otherRequest
  | scrape (fuel : ℕ)

inductive PodRequest (podIp : String) where
  | rpc (request : Request)
  | heartbeatThread (turns : ℕ)
  | metricsThread (listening : Bool) (turns : List MetricsTurn)
  | gracefulShutdown
  | foreign (command : ForeignCommand (heartbeatKey podIp))

inductive PodResult where
  | outcome (outcome : Outcome)
  | returned
  | cutOff
  deriving DecidableEq

namespace Pod

abbrev Routine := Prog PodOp PodOp.Res

def handler {α : Type} (p : GameService.Handler α) : Routine α :=
  p.expand fun o => .op (PodOp.server o)

def redis {α : Type} (p : Client α) : Routine α :=
  p.expand fun o => .op (PodOp.server (.redis o))

def heartbeatLoop (podIp : String) : ℕ → Routine PodResult
  | 0 => return .cutOff
  | turns + 1 => do
    if ← .op (PodOp.loadRunning .heartbeat) then
      let _ ← .op PodOp.sleep
      let _ ← redis (GameService.refreshHeartbeat podIp 300)
      heartbeatLoop podIp turns
    else
      let _ ← .op (PodOp.leave .heartbeat)
      return .returned

def metricsLoop (cfg : ServiceConfig) : List MetricsTurn → Routine PodResult
  | [] => return .cutOff
  | turn :: turns => do
    if !(← .op (PodOp.loadRunning .metrics)) then
      let _ ← .op (PodOp.leave .metrics)
      return .returned
    let _ ← .op PodOp.sleep
    if !(← .op (PodOp.loadRunning .metrics)) then
      let _ ← .op (PodOp.leave .metrics)
      return .returned
    match turn with
    | .nothing | .otherRequest => metricsLoop cfg turns
    | .scrape fuel =>
      match ← handler (GameService.collectMetricsSnapshot cfg fuel) with
      | none => return .cutOff
      | some _ => metricsLoop cfg turns

def heartbeatThread (podIp : String) (turns : ℕ) : Routine PodResult := do
  let _ ← .op (PodOp.enter .heartbeat)
  heartbeatLoop podIp turns

def metricsThread (cfg : ServiceConfig) (listening : Bool) (turns : List MetricsTurn) :
    Routine PodResult := do
  let _ ← .op (PodOp.enter .metrics)
  if listening then
    metricsLoop cfg turns
  else
    let _ ← .op (PodOp.leave .metrics)
    return .returned

def stopWorker (w : Worker) : Routine Unit := do
  let _ ← .op (PodOp.clearRunning w)
  if ← .op (PodOp.joinable w) then
    let _ ← .op (PodOp.join w)
    return ()
  else
    return ()

def stop : Routine Unit := do
  let _ ← stopWorker .heartbeat
  let _ ← stopWorker .metrics
  if ← .op PodOp.hasServer then
    let _ ← .op PodOp.shutdown
    let _ ← .op PodOp.awaitHandlers
    let _ ← .op PodOp.resetServer
    return ()
  else
    return ()

def waitForRooms : ℕ → Routine Unit
  | 0 => return ()
  | turns + 1 => do
    let _ ← .op (PodOp.server .getRoomCount)
    let _ ← .op PodOp.sleep
    waitForRooms turns

def closeRooms : List String → Routine Unit
  | [] => return ()
  | roomId :: roomIds => do
    let _ ← .op (PodOp.server (.closeRoom roomId))
    closeRooms roomIds

def drain : Routine Unit := do
  let _ ← .op (PodOp.setMaintenanceMode true)
  let _ ← waitForRooms 5
  let roomIds ← .op PodOp.getAllRooms
  closeRooms roomIds

def gracefulShutdown (podIp : String) : Routine PodResult := do
  let _ ← drain
  let _ ← redis (unregisterNode podIp)
  let _ ← stop
  return .returned

def rpc (cfg : ServiceConfig) (request : Request) : Routine PodResult := do
  let _ ← .op PodOp.accept
  let outcome ← handler (GameService.handle cfg request)
  let _ ← .op PodOp.respond
  return .outcome outcome

def foreign {key : String} (command : ForeignCommand key) : Routine PodResult := do
  let _ ← redis (redisCommand command.cmd)
  return .returned

def code (cfg : ServiceConfig) : PodRequest cfg.podIp → Routine PodResult
  | .rpc request => rpc cfg request
  | .heartbeatThread turns => heartbeatThread cfg.podIp turns
  | .metricsThread listening turns => metricsThread cfg listening turns
  | .gracefulShutdown => gracefulShutdown cfg.podIp
  | .foreign command => foreign command

variable {sim : Simulator}

def setThread (p : Pod sim) (w : Worker) (state : ThreadState) : Pod sim :=
  { p with thread := Function.update p.thread w state }

def exec (scanPage : ScanPolicy) : (op : PodOp) → Pod sim → op.Res × Pod sim
  | .server op, p =>
    let r := GameService.exec (Store.backend scanPage) op p.server
    (r.1, { p with server := r.2 })
  | .setMaintenanceMode b, p =>
    ((), { p with server := { p.server with rooms := p.server.rooms.setMaintenanceMode b } })
  | .getAllRooms, p => (inOrder p.server.rooms.getAllRooms.keys, p)
  | .sleep, p => ((), p)
  | .loadRunning w, p => (p.running w, p)
  | .clearRunning w, p => ((), { p with running := Function.update p.running w false })
  | .enter w, p => ((), p.setThread w .running)
  | .leave w, p => ((), p.setThread w .finished)
  | .joinable w, p => (p.thread w != .joined, p)
  | .join w, p => ((), p.setThread w .joined)
  | .accept, p => ((), { p with inFlight := p.inFlight + 1 })
  | .respond, p => ((), { p with inFlight := p.inFlight - 1 })
  | .hasServer, p => (p.hasServer, p)
  | .shutdown, p => ((), { p with accepting := false })
  | .awaitHandlers, p => ((), p)
  | .resetServer, p => ((), { p with hasServer := false })

/-- A thread runs once; join waits for its return, Shutdown for the handlers in flight. -/
def enabled : PodOp → Pod sim → Bool
  | .enter w, p => p.thread w == .created
  | .join w, p => p.thread w == .finished
  | .accept, p => p.accepting
  | .awaitHandlers, p => p.inFlight == 0
  | _, _ => true

def system (sim : Simulator) (cfg : ServiceConfig) (scanPage : ScanPolicy) :
    System (Pod sim) (PodRequest cfg.podIp) PodOp PodOp.Res PodResult where
  code := code cfg
  exec := exec scanPage
  enabled := enabled

def started (server : ServerState sim Store) : Pod sim where
  server := server
  running _ := true
  thread _ := .created
  hasServer := true
  accepting := true
  inFlight := 0

end Pod
end PokemonServer
