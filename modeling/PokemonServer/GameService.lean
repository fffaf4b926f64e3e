import PokemonServer.BattleEngine
import PokemonServer.Interleaving.System
import PokemonServer.RedisClient
import PokemonServer.RoomManager

/-!
# The gRPC handlers of GameServiceImpl

A handler is a program over the calls it makes: the lock-protected methods of
RoomManager and BattleEngine, each one operation, and the operations of
RedisClient. Log lines are left out; the response, the gRPC status and an
exception that leaves the handler are its outcome.
-/

namespace PokemonServer
open Interleaving

inductive ServerOp where
  | isInMaintenanceMode
  | canCreateRoom
  | createRoomWithId (roomId roomName : String) (maxPlayers : ℤ)
  | getRoomStatus (roomId : String)
  | closeRoom (roomId : String)
  | getRoomCount
  | getMaxRooms
  | createSession (sessionId : String) (initRequest : Json)
  | processTurn (sessionId : String) (turnRequest : Json)
  | getState (sessionId : String)
  | destroySession (sessionId : String)
  | redis (op : RedisOp)

abbrev ServerOp.Res : ServerOp → Type
  | .isInMaintenanceMode | .canCreateRoom => Bool
  | .createRoomWithId _ _ _ => String
  | .getRoomStatus _ => Option Room
  | .closeRoom _ => Bool
  | .getRoomCount => ℤ
  | .getMaxRooms => ℕ
  | .createSession _ _ => Except Exn (Except String Unit)
  | .processTurn _ _ => Except Exn TurnResult
  | .getState _ => Except Exn (Except String Json)
  | .destroySession _ => Bool
  | .redis op => op.Res

/-- A Redis connection: whether `context_` is set, and one command, whose reply is
null when the connection fails. -/
structure RedisBackend (R : Type) where
  isConnected : R → Bool
  command : Command → R → Option Reply × R

namespace RedisBackend
variable {R : Type}

def exec (B : RedisBackend R) : (op : RedisOp) → R → op.Res × R
  | .isConnected, s => (B.isConnected s, s)
  | .command cmd, s => B.command cmd s

end RedisBackend

structure ServerState (sim : Simulator) (R : Type) where
  rooms : RoomManager
  engine : BattleEngine sim
  redis : R

inductive StatusCode where
  | ok | invalidArgument | notFound | resourceExhausted | failedPrecondition | internal
  | unavailable
  deriving DecidableEq

structure Status where
  code : StatusCode
  message : String
  deriving DecidableEq

structure HeartbeatResponse where
  code : ℤ
  activeRooms : ℤ
  cpuUsage : ℚ
  memoryUsed : ℕ
  maxCapacity : ℤ
  serverId : String
  deriving DecidableEq

inductive Response where
  | common (code : ℤ) (message : String)
  | destroyRoom (code : ℤ) (message : String)
  | heartbeat (response : HeartbeatResponse)
  deriving DecidableEq

inductive Outcome where
  | returned (status : Status) (response : Response)
  | threw (exn : Exn)
  deriving DecidableEq

structure CreateRoomRequest where
  roomId : String
  initJson : String
  deriving DecidableEq

structure GameCommand where
  roomId : String
  playerId : String
  action : String
  deriving DecidableEq

structure DestroyRoomRequest where
  roomId : String
  deriving DecidableEq

inductive Request where
  | createRoom (request : CreateRoomRequest)
  | sendCommand (request : GameCommand)
  | destroyRoom (request : DestroyRoomRequest)
  | getHeartbeat
  deriving DecidableEq

def Request.roomId : Request → String
  | .createRoom request => request.roomId
  | .sendCommand request => request.roomId
  | .destroyRoom request => request.roomId
  | .getHeartbeat => ""

structure ServiceConfig where
  text : JsonText
  serverId : String
  podIp : String

namespace GameService

abbrev Handler := Prog ServerOp ServerOp.Res

def redis {α : Type} (p : RedisClient.Client α) : Handler α :=
  p.expand fun o => .op (ServerOp.redis o)

def common (status : StatusCode) (detail : String) (code : ℤ) (message : String) : Outcome :=
  .returned ⟨status, detail⟩ (.common code message)

/-- CreateRoom from its CreateSession on, with a dump that may throw. -/
def startBattleWith (dump : Json → Except Exn String) (actualRoomId : String)
    (initData : Json) : Handler Outcome := do
  match ← .op (ServerOp.createSession actualRoomId initData) with
  | .error exn => return .threw exn
  | .ok (.error battleError) =>
    let _ ← .op (ServerOp.closeRoom actualRoomId)
    return common .internal "Failed to initialize battle session" 6
      ("Failed to initialize battle session: " ++ battleError)
  | .ok (.ok ()) =>
    match ← .op (ServerOp.getState actualRoomId) with
    | .error exn => return .threw exn
    | .ok (.error _) => return common .ok "" 0 "Room created successfully"
    | .ok (.ok roomState) =>
      match dump roomState with
      | .error exn => return .threw exn
      | .ok data =>
        let _ ← redis (RedisClient.setRoomData actualRoomId data)
        return common .ok "" 0 "Room created successfully"

def startBattle (cfg : ServiceConfig) : String → Json → Handler Outcome :=
  startBattleWith fun roomState => .ok (cfg.text.dump roomState)

def createRoomWith (cfg : ServiceConfig) (start : String → Json → Handler Outcome)
    (request : CreateRoomRequest) : Handler Outcome := do
  if ← .op ServerOp.isInMaintenanceMode then
    return common .unavailable "Server is in maintenance mode" 1 "Server is in maintenance mode"
  if !(← .op ServerOp.canCreateRoom) then
    return common .resourceExhausted "Room limit reached" 2
      "Cannot create more rooms, limit reached"
  let roomId := request.roomId
  if roomId.isEmpty then
    return common .invalidArgument "Room ID cannot be empty" 3 "Room ID cannot be empty"
  match cfg.text.parse request.initJson with
  | .error e =>
    return common .invalidArgument "Invalid init_json format" 5
      ("Failed to parse init_json: " ++ e.what)
  | .ok initData =>
    let actualRoomId ← .op (ServerOp.createRoomWithId roomId "Battle Room" 2)
    if actualRoomId.isEmpty then
      return common .internal "Failed to create room" 4 "Failed to create room"
    start actualRoomId initData

def createRoom (cfg : ServiceConfig) : CreateRoomRequest → Handler Outcome :=
  createRoomWith cfg (startBattle cfg)

def rejectionMessage (text : JsonText) (battleError : String) (battleResponse : Json) : String :=
  let errorResponse := (Json.null.setField "ok" (.bool false)).setField "error" (.string battleError)
  text.dump (if battleResponse.contains "errors" then
    errorResponse.setField "errors" (battleResponse.index "errors") else errorResponse)

def turnMessage (text : JsonText) (playerId : String) (battleResponse : Json) :
    Except Exn String := do
  if ← battleResponse.valueBool "waiting" false then
    let ok ← battleResponse.valueBool "ok" true
    let minimal := Json.object [("ok", .bool ok), ("status", .string "waiting_for_opponent"),
      ("submitted_player_id", .string playerId), ("waiting", .bool true)]
    let minimal := if battleResponse.contains "pending_side" then
      minimal.setField "pending_side" (battleResponse.index "pending_side") else minimal
    let minimal := if battleResponse.contains "turn" then
      minimal.setField "turn" (battleResponse.index "turn") else minimal
    return text.dump minimal
  else
    return text.dump battleResponse

def commandMessage (text : JsonText) (playerId : String) (battleResponse : Json) : String :=
  match turnMessage text playerId battleResponse with
  | .ok message => message
  | .error e =>
    "Battle turn processed successfully (failed to serialize response): " ++ e.what

def sendCommand (cfg : ServiceConfig) (request : GameCommand) : Handler Outcome := do
  match ← .op (ServerOp.getRoomStatus request.roomId) with
  | none => return common .notFound "Room not found" 1 "Room not found"
  | some room =>
    if !room.isActive then
      return common .failedPrecondition "Room is not active" 2 "Room is not active"
    match cfg.text.parse request.action with
    | .error e =>
      return common .invalidArgument "Invalid action json format" 3
        ("Failed to parse action json: " ++ e.what)
    | .ok turnRequest =>
      match ← .op (ServerOp.processTurn request.roomId turnRequest) with
      | .error exn => return .threw exn
      | .ok turn =>
        if !turn.accepted then
          return common .invalidArgument ("Battle action validation failed: " ++ turn.error) 4
            (rejectionMessage cfg.text turn.error turn.response)
        let _ ← redis (RedisClient.setRoomData request.roomId (cfg.text.dump turn.response))
        return common .ok "" 0 (commandMessage cfg.text request.playerId turn.response)

def destroyRoom (request : DestroyRoomRequest) : Handler Outcome := do
  if !(← .op (ServerOp.closeRoom request.roomId)) then
    return .returned ⟨.notFound, "Room not found"⟩ (.destroyRoom 1 "Room not found")
  let _ ← .op (ServerOp.destroySession request.roomId)
  let _ ← redis (RedisClient.deleteRoomData request.roomId)
  return .returned ⟨.ok, ""⟩ (.destroyRoom 0 "Room destroyed successfully")

def getHeartbeat (cfg : ServiceConfig) : Handler Outcome := do
  let activeRooms ← .op ServerOp.getRoomCount
  let maxRooms ← .op ServerOp.getMaxRooms
  let _ ← redis (RedisClient.touchNodeHeartbeat cfg.podIp 30)
  return .returned ⟨.ok, ""⟩ (.heartbeat ⟨0, activeRooms, 0, 0, maxRooms, cfg.serverId⟩)

def handle (cfg : ServiceConfig) : Request → Handler Outcome
  | .createRoom request => createRoom cfg request
  | .sendCommand request => sendCommand cfg request
  | .destroyRoom request => destroyRoom request
  | .getHeartbeat => getHeartbeat cfg

variable {sim : Simulator} {R : Type}

def exec (B : RedisBackend R) :
    (op : ServerOp) → ServerState sim R → op.Res × ServerState sim R
  | .isInMaintenanceMode, s => (s.rooms.isInMaintenanceMode, s)
  | .canCreateRoom, s => (s.rooms.canCreateRoom, s)
  | .createRoomWithId roomId roomName maxPlayers, s =>
    let r := s.rooms.createRoomWithId roomId roomName maxPlayers
    (r.1, { s with rooms := r.2 })
  | .getRoomStatus roomId, s => (s.rooms.getRoomStatus roomId, s)
  | .closeRoom roomId, s =>
    let r := s.rooms.closeRoom roomId
    (r.1, { s with rooms := r.2 })
  | .getRoomCount, s => (s.rooms.getRoomCount, s)
  | .getMaxRooms, s => (s.rooms.getMaxRooms, s)
  | .createSession sessionId initRequest, s =>
    let r := s.engine.createSession sessionId initRequest
    (r.1, { s with engine := r.2 })
  | .processTurn sessionId turnRequest, s =>
    let r := s.engine.processTurn sessionId turnRequest
    (r.1, { s with engine := r.2 })
  | .getState sessionId, s => (s.engine.getState sessionId, s)
  | .destroySession sessionId, s =>
    let r := s.engine.destroySession sessionId
    (r.1, { s with engine := r.2 })
  | .redis .isConnected, s => (B.isConnected s.redis, s)
  | .redis (.command cmd), s =>
    let r := B.command cmd s.redis
    (r.1, { s with redis := r.2 })

def initState (maxRooms : ℕ) (redis : R) : ServerState sim R :=
  ⟨RoomManager.init maxRooms, BattleEngine.init, redis⟩

def system (sim : Simulator) (cfg : ServiceConfig) (B : RedisBackend R) :
    System (ServerState sim R) Request ServerOp ServerOp.Res Outcome where
  code := handle cfg
  exec := exec B

end GameService

def Store.backend (scanPage : ScanPolicy) : RedisBackend Store where
  isConnected _ := true
  command cmd s := let r := Store.exec scanPage cmd s; (some r.1, r.2)

/-! A small simulator and text format, for concrete runs: a battle is its number
of turns, and only the text of the empty object parses. -/
namespace Sample

def emptyText : String := "\x7b\x7d"

def turnText (turn : ℤ) : String := "\x7b\"ok\":true,\"turn\":" ++ toString turn ++ "\x7d"

def turnJson (turn : ℕ) : Json := .object [("ok", .bool true), ("turn", .int turn)]

def simulator : Simulator where
  BattleSession := ℕ
  Battle := ℕ
  createFromJson _ := .ok (.ok 0)
  processTurn session _ := (.ok (turnJson (session + 1)), session + 1)
  getBattle session := some session
  battleAllInfoToJson battle := .ok (turnJson battle)

def text : JsonText where
  parse s := if s = emptyText then .ok (.object []) else .error ⟨"parse error"⟩
  dump j :=
    match j.field? "turn" with
    | some (.int n) => turnText n
    | _ => emptyText

def config : ServiceConfig := ⟨text, "server-0", "10.0.0.1"⟩

def scanAll : ScanPolicy := fun s _ => (s.keys, 0)

def create (roomId : String) : Request := .createRoom ⟨roomId, emptyText⟩
def command (roomId : String) : Request := .sendCommand ⟨roomId, "p1", emptyText⟩
def destroy (roomId : String) : Request := .destroyRoom ⟨roomId⟩

def begin (req : Request) : List (Action Request) := [.start req]
def calls (t n : ℕ) : List (Action Request) := List.replicate n (.run t)

abbrev service : System (ServerState simulator Store) Request ServerOp ServerOp.Res Outcome :=
  GameService.system simulator config (Store.backend scanAll)

def state : ServerState simulator Store := GameService.initState 10 ∅

end Sample
end PokemonServer
