import PokemonServer.GameService

/-!
# Handlers executed alone

One lemma for each way through a handler: the outcome and the state it leaves when
no other handler runs in between.
-/

namespace PokemonServer
open Interleaving

def ServerState.withRoom {sim : Simulator} {R : Type} (s : ServerState sim R) (roomId : String) :
    ServerState sim R :=
  { s with
    rooms := { s.rooms with
      rooms := s.rooms.rooms.insert roomId (newRoom roomId "Battle Room" 2)
      roomCount := s.rooms.roomCount + 1 } }

@[simp] theorem withRoom_engine {sim : Simulator} {R : Type} (s : ServerState sim R)
    (roomId : String) : (s.withRoom roomId).engine = s.engine := rfl

@[simp] theorem withRoom_redis {sim : Simulator} {R : Type} (s : ServerState sim R)
    (roomId : String) : (s.withRoom roomId).redis = s.redis := rfl

theorem closeRoom_withRoom {sim : Simulator} {R : Type} (s : ServerState sim R) {roomId : String}
    (hnot : roomId ∉ s.rooms.rooms) :
    { s.withRoom roomId with rooms := ((s.withRoom roomId).rooms.closeRoom roomId).2 } = s := by
  have hrooms : (s.rooms.rooms.insert roomId (newRoom roomId "Battle Room" 2)).erase roomId =
      s.rooms.rooms := by
    refine Finmap.ext_lookup fun r => ?_
    by_cases hr : r = roomId
    · subst hr
      rw [Finmap.lookup_erase, Finmap.lookup_eq_none.mpr hnot]
    · rw [Finmap.lookup_erase_ne hr, Finmap.lookup_insert_of_ne _ hr]
  simp [ServerState.withRoom, RoomManager.closeRoom, hrooms]

namespace GameService
variable {sim : Simulator} {R α : Type} {B : RedisBackend R} {cfg : ServiceConfig}
  {s : ServerState sim R}

theorem run_redis (p : RedisClient.Client α) (s : ServerState sim R) :
    (redis p).run (exec B) s =
      ((p.run B.exec s.redis).1, { s with redis := (p.run B.exec s.redis).2 }) := by
  induction p generalizing s with
  | ret a => rfl
  | call o next ih => cases o <;> exact ih _ _

section createRoom
variable {q : CreateRoomRequest}

theorem run_createRoom_maintenance (h : s.rooms.isMaintaining = true) :
    (createRoom cfg q).run (exec B) s =
      (common .unavailable "Server is in maintenance mode" 1 "Server is in maintenance mode", s) := by
  simp [createRoom, createRoomWith, exec, RoomManager.isInMaintenanceMode, h]

theorem run_createRoom_full (h : s.rooms.isMaintaining = false)
    (hfull : s.rooms.maxRooms ≤ s.rooms.rooms.keys.card) :
    (createRoom cfg q).run (exec B) s =
      (common .resourceExhausted "Room limit reached" 2
        "Cannot create more rooms, limit reached", s) := by
  have hnot : ¬ s.rooms.rooms.keys.card < s.rooms.maxRooms := not_lt.mpr hfull
  simp [createRoom, createRoomWith, exec, RoomManager.isInMaintenanceMode,
    RoomManager.canCreateRoom, h, hnot]

variable (h : s.rooms.isMaintaining = false)
  (hroom : s.rooms.rooms.keys.card < s.rooms.maxRooms)
include h hroom

theorem run_createRoom_emptyId (hid : q.roomId = "") :
    (createRoom cfg q).run (exec B) s =
      (common .invalidArgument "Room ID cannot be empty" 3 "Room ID cannot be empty", s) := by
  simp [createRoom, createRoomWith, exec, RoomManager.isInMaintenanceMode,
    RoomManager.canCreateRoom, h, hroom, hid]

variable (hid : q.roomId ≠ "")
include hid

theorem run_createRoom_unparsable {e : Exn} (hparse : cfg.text.parse q.initJson = .error e) :
    (createRoom cfg q).run (exec B) s =
      (common .invalidArgument "Invalid init_json format" 5
        ("Failed to parse init_json: " ++ e.what), s) := by
  simp [createRoom, createRoomWith, exec, RoomManager.isInMaintenanceMode,
    RoomManager.canCreateRoom, h, hroom, hid, hparse]

variable {init : Json} (hparse : cfg.text.parse q.initJson = .ok init)
include hparse

theorem run_createRoom_present (hmem : q.roomId ∈ s.rooms.rooms) :
    (createRoom cfg q).run (exec B) s =
      (common .internal "Failed to create room" 4 "Failed to create room", s) := by
  simp [createRoom, createRoomWith, exec, RoomManager.isInMaintenanceMode,
    RoomManager.canCreateRoom, RoomManager.createRoomWithId, h, hroom, not_le.mpr hroom, hid,
    hparse, hmem]

variable (hnot : q.roomId ∉ s.rooms.rooms)
include hnot

theorem run_createRoom_inserted : (createRoom cfg q).run (exec B) s =
    (startBattle cfg q.roomId init).run (exec B) (s.withRoom q.roomId) := by
  simp [createRoom, createRoomWith, exec, RoomManager.isInMaintenanceMode,
    RoomManager.canCreateRoom, RoomManager.createRoomWithId, ServerState.withRoom, h, hroom,
    not_le.mpr hroom, hid, hparse, hnot]

theorem run_createRoom_sessionFails {battleError : String}
    (hsession : s.engine.createSession q.roomId init = (.ok (.error battleError), s.engine)) :
    (createRoom cfg q).run (exec B) s =
      (common .internal "Failed to initialize battle session" 6
        ("Failed to initialize battle session: " ++ battleError), s) := by
  rw [run_createRoom_inserted h hroom hid hparse hnot]
  have hclose := closeRoom_withRoom s hnot
  simp [startBattle, startBattleWith, exec, hsession]
  exact hclose

theorem run_createRoom_created {e : BattleEngine sim}
    (hsession : s.engine.createSession q.roomId init = (.ok (.ok ()), e)) :
    (createRoom cfg q).run (exec B) s =
      match e.getState q.roomId with
      | .error exn => (.threw exn, { s.withRoom q.roomId with engine := e })
      | .ok (.error _) => (common .ok "" 0 "Room created successfully",
          { s.withRoom q.roomId with engine := e })
      | .ok (.ok state) => (common .ok "" 0 "Room created successfully",
          { s.withRoom q.roomId with
            engine := e
            redis := ((RedisClient.setRoomData q.roomId (cfg.text.dump state)).run B.exec
              s.redis).2 }) := by
  rw [run_createRoom_inserted h hroom hid hparse hnot]
  simp only [startBattle, startBattleWith, Prog.op_bind, Prog.run_call, exec, withRoom_engine,
    hsession]
  split <;> simp_all [run_redis]

end createRoom

section sendCommand
variable {q : GameCommand}

theorem run_sendCommand_absent (h : q.roomId ∉ s.rooms.rooms) :
    (sendCommand cfg q).run (exec B) s =
      (common .notFound "Room not found" 1 "Room not found", s) := by
  simp [sendCommand, exec, RoomManager.getRoomStatus, Finmap.lookup_eq_none.mpr h]

variable {room : Room} (hroom : s.rooms.rooms.lookup q.roomId = some room)
include hroom

theorem run_sendCommand_inactive (hactive : room.isActive = false) :
    (sendCommand cfg q).run (exec B) s =
      (common .failedPrecondition "Room is not active" 2 "Room is not active", s) := by
  simp [sendCommand, exec, RoomManager.getRoomStatus, hroom, hactive]

variable (hactive : room.isActive = true)
include hactive

theorem run_sendCommand_unparsable {e : Exn} (hparse : cfg.text.parse q.action = .error e) :
    (sendCommand cfg q).run (exec B) s =
      (common .invalidArgument "Invalid action json format" 3
        ("Failed to parse action json: " ++ e.what), s) := by
  simp [sendCommand, exec, RoomManager.getRoomStatus, hroom, hactive, hparse]

variable {action : Json} (hparse : cfg.text.parse q.action = .ok action) {e : BattleEngine sim}
include hparse

theorem run_sendCommand_threw {exn : Exn}
    (hturn : s.engine.processTurn q.roomId action = (.error exn, e)) :
    (sendCommand cfg q).run (exec B) s = (.threw exn, { s with engine := e }) := by
  simp [sendCommand, exec, RoomManager.getRoomStatus, hroom, hactive, hparse, hturn]

theorem run_sendCommand_rejected {turn : TurnResult}
    (hturn : s.engine.processTurn q.roomId action = (.ok turn, e))
    (hrejected : turn.accepted = false) :
    (sendCommand cfg q).run (exec B) s =
      (common .invalidArgument ("Battle action validation failed: " ++ turn.error) 4
        (rejectionMessage cfg.text turn.error turn.response), { s with engine := e }) := by
  simp [sendCommand, exec, RoomManager.getRoomStatus, hroom, hactive, hparse, hturn, hrejected]

theorem run_sendCommand_accepted {turn : TurnResult}
    (hturn : s.engine.processTurn q.roomId action = (.ok turn, e))
    (haccepted : turn.accepted = true) :
    (sendCommand cfg q).run (exec B) s =
      (common .ok "" 0 (commandMessage cfg.text q.playerId turn.response),
        { s with
          engine := e
          redis := ((RedisClient.setRoomData q.roomId (cfg.text.dump turn.response)).run B.exec
            s.redis).2 }) := by
  simp [sendCommand, exec, RoomManager.getRoomStatus, hroom, hactive, hparse, hturn, haccepted,
    run_redis]

end sendCommand

theorem run_destroyRoom_absent {q : DestroyRoomRequest} (h : q.roomId ∉ s.rooms.rooms) :
    (destroyRoom q).run (exec B) s =
      (.returned ⟨.notFound, "Room not found"⟩ (.destroyRoom 1 "Room not found"), s) := by
  simp [destroyRoom, exec, RoomManager.closeRoom, h]

theorem run_destroyRoom_present {q : DestroyRoomRequest} (h : q.roomId ∈ s.rooms.rooms) :
    (destroyRoom q).run (exec B) s =
      (.returned ⟨.ok, ""⟩ (.destroyRoom 0 "Room destroyed successfully"),
        { rooms := (s.rooms.closeRoom q.roomId).2
          engine := (s.engine.destroySession q.roomId).2
          redis := ((RedisClient.deleteRoomData q.roomId).run B.exec s.redis).2 }) := by
  simp [destroyRoom, exec, RoomManager.closeRoom, h, run_redis]

theorem run_getHeartbeat :
    (getHeartbeat cfg).run (exec B) s =
      (.returned ⟨.ok, ""⟩
        (.heartbeat ⟨0, s.rooms.roomCount, 0, 0, s.rooms.maxRooms, cfg.serverId⟩),
        { s with
          redis := ((RedisClient.touchNodeHeartbeat cfg.podIp 30).run B.exec s.redis).2 }) := by
  simp [getHeartbeat, exec, RoomManager.getRoomCount, RoomManager.getMaxRooms, run_redis]

end GameService
end PokemonServer
