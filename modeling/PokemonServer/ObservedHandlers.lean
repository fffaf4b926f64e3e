import PokemonServer.HandlerRuns
import PokemonServer.RoomKeys

/-!
# What a request does, as the simulator's observer sees it

A handler run alone, together with an observer that keeps the JSON returned last for
each room. `PodStep` lists everything that one request can do to the rooms, to Redis
and to the observed JSON; what a cluster of pods keeps is derived from it.
-/

namespace PokemonServer
open Interleaving RedisClient

/-- The JSON that the simulator returned last for each room that has not been closed. -/
abbrev LastJson := String → Option Json

def observe : (op : ServerOp) → op.Res → LastJson → LastJson
  | .getState roomId, .ok (.ok state), last => Function.update last roomId (some state)
  | .processTurn roomId _, .ok turn, last =>
    if turn.accepted then Function.update last roomId (some turn.response) else last
  | .closeRoom roomId, true, last => Function.update last roomId none
  | _, _, last => last

def Simulator.Returns (sim : Simulator) (j : Json) : Prop :=
  (∃ battle, sim.battleAllInfoToJson battle = .ok j) ∨
    ∃ session action, (sim.processTurn session action).1 = .ok j

namespace BattleEngine
variable {sim : Simulator} {e : BattleEngine sim} {sessionId : String}

theorem returns_of_getState {state : Json} (h : e.getState sessionId = .ok (.ok state)) :
    sim.Returns state := by
  unfold getState at h
  split at h
  · cases h
  · split at h
    · cases h
    · rename_i battle _
      cases hjson : sim.battleAllInfoToJson battle with
      | error exn => simp [hjson, Except.map] at h
      | ok j =>
        obtain rfl : j = state := by simpa [hjson, Except.map] using h
        exact Or.inl ⟨battle, hjson⟩

theorem judgeTurn_response {response : Json} {turn : TurnResult}
    (h : judgeTurn response = .ok turn) : turn.response = response := by
  cases hok : response.valueBool "ok" true with
  | error exn =>
    simp only [judgeTurn, hok, bind, Except.bind] at h
    cases h
  | ok ok =>
    simp only [judgeTurn, hok, bind, Except.bind] at h
    split at h
    · cases herror : errorMessage (response.index "errors") with
      | error exn =>
        rw [herror] at h
        cases h
      | ok error =>
        rw [herror] at h
        cases h
        rfl
    · cases h
      rfl

theorem returns_of_processTurn {action : Json} {turn : TurnResult}
    (h : (e.processTurn sessionId action).1 = .ok turn) (haccepted : turn.accepted = true) :
    sim.Returns turn.response := by
  unfold processTurn at h
  split at h
  · cases h
    cases haccepted
  · rename_i session _
    cases hturn : (sim.processTurn session action).1 with
    | error exn => simp [hturn, Except.bind] at h
    | ok response =>
      have hjudge : judgeTurn response = .ok turn := by simpa [hturn, Except.bind] using h
      rw [judgeTurn_response hjudge]
      exact Or.inr ⟨session, action, hturn⟩

end BattleEngine

variable {sim : Simulator} {cfg : ServiceConfig} {scanPage : ScanPolicy}

abbrev watch (scanPage : ScanPolicy) : (op : ServerOp) → ServerState sim Store × LastJson →
    op.Res × (ServerState sim Store × LastJson) :=
  Prog.observing (GameService.exec (Store.backend scanPage)) observe

/-- What serving one request does to a pod, to Redis and to the observed JSON. -/
inductive PodStep (cfg : ServiceConfig) (s : ServerState sim Store) (last : LastJson) :
    Request → ServerState sim Store → LastJson → Prop
  | kept {request : Request} {s' : ServerState sim Store} : s'.rooms.rooms = s.rooms.rooms →
      s'.redis = s.redis → PodStep cfg s last request s' last
  | undone {q : CreateRoomRequest} : q.roomId ∉ s.rooms.rooms →
      PodStep cfg s last (.createRoom q) s (Function.update last q.roomId none)
  | inserted {q : CreateRoomRequest} {room : Room} {s' : ServerState sim Store} :
      q.roomId ∉ s.rooms.rooms → s'.rooms.rooms = s.rooms.rooms.insert q.roomId room →
      s'.redis = s.redis → PodStep cfg s last (.createRoom q) s' last
  | created {q : CreateRoomRequest} {room : Room} {state : Json} {s' : ServerState sim Store} :
      q.roomId ∉ s.rooms.rooms → s'.rooms.rooms = s.rooms.rooms.insert q.roomId room →
      sim.Returns state →
      s'.redis = s.redis.insert (roomKey q.roomId) (.string (cfg.text.dump state)) →
      PodStep cfg s last (.createRoom q) s' (Function.update last q.roomId (some state))
  | turned {q : GameCommand} {response : Json} {s' : ServerState sim Store} :
      q.roomId ∈ s.rooms.rooms → s'.rooms.rooms = s.rooms.rooms → sim.Returns response →
      s'.redis = s.redis.insert (roomKey q.roomId) (.string (cfg.text.dump response)) →
      PodStep cfg s last (.sendCommand q) s' (Function.update last q.roomId (some response))
  | destroyed {q : DestroyRoomRequest} {s' : ServerState sim Store} : q.roomId ∈ s.rooms.rooms →
      s'.rooms.rooms = s.rooms.rooms.erase q.roomId →
      s'.redis = (Store.delKeys (deletedKeys q.roomId) s.redis).2 →
      PodStep cfg s last (.destroyRoom q) s' (Function.update last q.roomId none)
  | touched {s' : ServerState sim Store} : s'.rooms.rooms = s.rooms.rooms →
      s'.redis = s.redis.insert (heartbeatKey cfg.podIp) (.string "1") →
      PodStep cfg s last .getHeartbeat s' last

namespace GameService
variable {s : ServerState sim Store} {last : LastJson}

theorem run_redis_watch {α : Type} (p : Client α) (s : ServerState sim Store) (last : LastJson) :
    (redis p).run (watch scanPage) (s, last) =
      ((p.run (Store.backend scanPage).exec s.redis).1,
        ({ s with redis := (p.run (Store.backend scanPage).exec s.redis).2 }, last)) := by
  induction p generalizing s with
  | ret a => rfl
  | call o next ih => cases o <;> exact ih _ _

theorem destroyRoom_step (q : DestroyRoomRequest) :
    PodStep cfg s last (.destroyRoom q)
      ((destroyRoom q).run (watch scanPage) (s, last)).2.1
      ((destroyRoom q).run (watch scanPage) (s, last)).2.2 := by
  by_cases hmem : q.roomId ∈ s.rooms.rooms
  · have hrun : ((destroyRoom q).run (watch scanPage) (s, last)).2 =
        ({ rooms := (s.rooms.closeRoom q.roomId).2
           engine := (s.engine.destroySession q.roomId).2
           redis := (Store.delKeys (deletedKeys q.roomId) s.redis).2 },
          Function.update last q.roomId none) := by
      simp [destroyRoom, Prog.observing, exec, RoomManager.closeRoom, hmem, observe,
        run_redis_watch]
      rfl
    rw [hrun]
    exact .destroyed hmem (by simp [RoomManager.closeRoom, hmem]) rfl
  · have hrun : ((destroyRoom q).run (watch scanPage) (s, last)).2 = (s, last) := by
      simp [destroyRoom, Prog.observing, exec, RoomManager.closeRoom, hmem, observe]
    rw [hrun]
    exact .kept rfl rfl

theorem getHeartbeat_step :
    PodStep cfg s last .getHeartbeat
      ((getHeartbeat cfg).run (watch scanPage) (s, last)).2.1
      ((getHeartbeat cfg).run (watch scanPage) (s, last)).2.2 := by
  have hrun : ((getHeartbeat cfg).run (watch scanPage) (s, last)).2 =
      ({ s with redis := s.redis.insert (heartbeatKey cfg.podIp) (.string "1") }, last) := by
    simp [getHeartbeat, Prog.observing, exec, observe, run_redis_watch]
    rfl
  rw [hrun]
  exact .touched rfl rfl

theorem sendCommand_step (q : GameCommand) :
    PodStep cfg s last (.sendCommand q)
      ((sendCommand cfg q).run (watch scanPage) (s, last)).2.1
      ((sendCommand cfg q).run (watch scanPage) (s, last)).2.2 := by
  -- a command that is not accepted changes at most the engine
  have hrefused : ∀ engine : BattleEngine sim,
      ((sendCommand cfg q).run (watch scanPage) (s, last)).2 = ({ s with engine := engine }, last) →
      PodStep cfg s last (.sendCommand q)
        ((sendCommand cfg q).run (watch scanPage) (s, last)).2.1
        ((sendCommand cfg q).run (watch scanPage) (s, last)).2.2 := by
    intro engine hrun
    rw [hrun]
    exact .kept rfl rfl
  cases hroom : s.rooms.rooms.lookup q.roomId with
  | none =>
    apply hrefused s.engine
    simp [sendCommand, Prog.observing, exec, observe, RoomManager.getRoomStatus, hroom]
  | some room =>
  have hmem : q.roomId ∈ s.rooms.rooms := Finmap.mem_of_lookup_eq_some hroom
  cases hactive : room.isActive with
  | false =>
    apply hrefused s.engine
    simp [sendCommand, Prog.observing, exec, observe, RoomManager.getRoomStatus, hroom, hactive]
  | true =>
  cases hparse : cfg.text.parse q.action with
  | error e =>
    apply hrefused s.engine
    simp [sendCommand, Prog.observing, exec, observe, RoomManager.getRoomStatus, hroom, hactive,
      hparse]
  | ok action =>
  cases hturn : (s.engine.processTurn q.roomId action).1 with
  | error exn =>
    apply hrefused (s.engine.processTurn q.roomId action).2
    simp [sendCommand, Prog.observing, exec, observe, RoomManager.getRoomStatus, hroom, hactive,
      hparse, hturn]
  | ok turn =>
  cases haccepted : turn.accepted with
  | false =>
    apply hrefused (s.engine.processTurn q.roomId action).2
    simp [sendCommand, Prog.observing, exec, observe, RoomManager.getRoomStatus, hroom, hactive,
      hparse, hturn, haccepted]
  | true =>
    have hrun : ((sendCommand cfg q).run (watch scanPage) (s, last)).2 =
        ({ s with
            engine := (s.engine.processTurn q.roomId action).2
            redis := s.redis.insert (roomKey q.roomId) (.string (cfg.text.dump turn.response)) },
          Function.update last q.roomId (some turn.response)) := by
      simp [sendCommand, Prog.observing, exec, observe, RoomManager.getRoomStatus, hroom, hactive,
        hparse, hturn, haccepted, run_redis_watch]
      rfl
    rw [hrun]
    exact .turned hmem rfl (BattleEngine.returns_of_processTurn hturn haccepted) rfl

section createRoom
variable {q : CreateRoomRequest} (hmaintaining : s.rooms.isMaintaining = false)
  (hroom : s.rooms.rooms.keys.card < s.rooms.maxRooms) (hid : q.roomId ≠ "") {init : Json}
  (hparse : cfg.text.parse q.initJson = .ok init) (hnot : q.roomId ∉ s.rooms.rooms)
include hmaintaining hroom hid hparse hnot

theorem run_createRoom_inserted_watch :
    (createRoom cfg q).run (watch scanPage) (s, last) =
      (startBattle cfg q.roomId init).run (watch scanPage) (s.withRoom q.roomId, last) := by
  simp [createRoom, createRoomWith, Prog.observing, exec, observe, RoomManager.isInMaintenanceMode,
    RoomManager.canCreateRoom, RoomManager.createRoomWithId, ServerState.withRoom, hmaintaining,
    hroom, not_le.mpr hroom, hid, hparse, hnot]

theorem createRoom_step_inserted :
    PodStep cfg s last (.createRoom q)
      ((createRoom cfg q).run (watch scanPage) (s, last)).2.1
      ((createRoom cfg q).run (watch scanPage) (s, last)).2.2 := by
  have hinserted : (createRoom cfg q).run (watch scanPage) (s, last) =
      (startBattle cfg q.roomId init).run (watch scanPage) (s.withRoom q.roomId, last) :=
    run_createRoom_inserted_watch hmaintaining hroom hid hparse hnot
  rcases s.engine.createSession_cases q.roomId init with
    ⟨session, -, -, -, hsession⟩ | ⟨error, hsession⟩ | ⟨exn, -, hsession⟩
  · obtain ⟨engine, hengine⟩ : ∃ e : BattleEngine sim,
        e = ⟨s.engine.sessions.insert q.roomId session⟩ := ⟨_, rfl⟩
    rw [← hengine] at hsession
    match hstate : engine.getState q.roomId with
    | .error exn =>
      have hrun : ((createRoom cfg q).run (watch scanPage) (s, last)).2 =
          ({ s.withRoom q.roomId with engine := engine }, last) := by
        rw [hinserted]
        simp [startBattle, startBattleWith, Prog.observing, exec, observe, hsession, hstate]
      rw [hrun]
      exact .inserted hnot rfl rfl
    | .ok (.error error) =>
      have hrun : ((createRoom cfg q).run (watch scanPage) (s, last)).2 =
          ({ s.withRoom q.roomId with engine := engine }, last) := by
        rw [hinserted]
        simp [startBattle, startBattleWith, Prog.observing, exec, observe, hsession, hstate]
      rw [hrun]
      exact .inserted hnot rfl rfl
    | .ok (.ok state) =>
      have hrun : ((createRoom cfg q).run (watch scanPage) (s, last)).2 =
          ({ s.withRoom q.roomId with
              engine := engine
              redis := s.redis.insert (roomKey q.roomId) (.string (cfg.text.dump state)) },
            Function.update last q.roomId (some state)) := by
        rw [hinserted]
        simp [startBattle, startBattleWith, Prog.observing, exec, observe, hsession, hstate,
          run_redis_watch]
        rfl
      rw [hrun]
      exact .created hnot rfl (BattleEngine.returns_of_getState hstate) rfl
  · have hrun : ((createRoom cfg q).run (watch scanPage) (s, last)).2 =
        (s, Function.update last q.roomId none) := by
      rw [hinserted]
      have hclose := closeRoom_withRoom s hnot
      have hclosed : ((s.withRoom q.roomId).rooms.closeRoom q.roomId).1 = true := by
        simp [RoomManager.closeRoom_fst, ServerState.withRoom]
      simp [startBattle, startBattleWith, Prog.observing, exec, observe, hsession, hclosed]
      exact hclose
    rw [hrun]
    exact .undone hnot
  · have hrun : ((createRoom cfg q).run (watch scanPage) (s, last)).2 =
        (s.withRoom q.roomId, last) := by
      rw [hinserted]
      simp [startBattle, startBattleWith, Prog.observing, exec, observe, hsession]
      rfl
    rw [hrun]
    exact .inserted hnot rfl rfl

end createRoom

theorem createRoom_step (q : CreateRoomRequest) :
    PodStep cfg s last (.createRoom q)
      ((createRoom cfg q).run (watch scanPage) (s, last)).2.1
      ((createRoom cfg q).run (watch scanPage) (s, last)).2.2 := by
  -- every refusal leaves the state and the observed JSON alone
  have hrefused : ((createRoom cfg q).run (watch scanPage) (s, last)).2 = (s, last) →
      PodStep cfg s last (.createRoom q)
        ((createRoom cfg q).run (watch scanPage) (s, last)).2.1
        ((createRoom cfg q).run (watch scanPage) (s, last)).2.2 := by
    intro hrun
    rw [hrun]
    exact .kept rfl rfl
  cases hmaintaining : s.rooms.isMaintaining with
  | true =>
    apply hrefused
    simp [createRoom, createRoomWith, Prog.observing, exec, observe,
      RoomManager.isInMaintenanceMode, hmaintaining]
  | false =>
  by_cases hroom : s.rooms.rooms.keys.card < s.rooms.maxRooms
  swap
  · apply hrefused
    simp [createRoom, createRoomWith, Prog.observing, exec, observe,
      RoomManager.isInMaintenanceMode, RoomManager.canCreateRoom, hmaintaining, hroom]
  by_cases hid : q.roomId = ""
  · apply hrefused
    simp [createRoom, createRoomWith, Prog.observing, exec, observe,
      RoomManager.isInMaintenanceMode, RoomManager.canCreateRoom, hmaintaining, hroom, hid]
  cases hparse : cfg.text.parse q.initJson with
  | error e =>
    apply hrefused
    simp [createRoom, createRoomWith, Prog.observing, exec, observe,
      RoomManager.isInMaintenanceMode, RoomManager.canCreateRoom, hmaintaining, hroom, hid, hparse]
  | ok init =>
  by_cases hmem : q.roomId ∈ s.rooms.rooms
  · apply hrefused
    simp [createRoom, createRoomWith, Prog.observing, exec, observe,
      RoomManager.isInMaintenanceMode, RoomManager.canCreateRoom, RoomManager.createRoomWithId,
      hmaintaining, hroom, not_le.mpr hroom, hid, hparse, hmem]
  · exact createRoom_step_inserted hmaintaining hroom hid hparse hmem

theorem handle_step (request : Request) :
    PodStep cfg s last request
      ((handle cfg request).run (watch scanPage) (s, last)).2.1
      ((handle cfg request).run (watch scanPage) (s, last)).2.2 := by
  cases request with
  | createRoom q => exact createRoom_step q
  | sendCommand q => exact sendCommand_step q
  | destroyRoom q => exact destroyRoom_step q
  | getHeartbeat => exact getHeartbeat_step

end GameService

end PokemonServer
