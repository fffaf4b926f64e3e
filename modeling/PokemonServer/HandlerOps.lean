import PokemonServer.Interleaving.Path
import PokemonServer.ObservedHandlers

/-!
# The operations of a handler

`Issued` lists, for each request, every operation its handler can execute. The
handlers are followed for the results that the operations can have: CreateRoomWithId
returns its id or nothing, and what is described or answered with success comes
from the simulator. No behaviour of the simulator is excluded.
-/

namespace PokemonServer
open Interleaving RedisClient

namespace GameService

inductive Issued (cfg : ServiceConfig) (J : Json → Prop) : Request → ServerOp → Prop
  | isInMaintenanceMode {q : CreateRoomRequest} : Issued cfg J (.createRoom q) .isInMaintenanceMode
  | canCreateRoom {q : CreateRoomRequest} : Issued cfg J (.createRoom q) .canCreateRoom
  | createRoomWithId {q : CreateRoomRequest} : q.roomId ≠ "" →
      Issued cfg J (.createRoom q) (.createRoomWithId q.roomId "Battle Room" 2)
  | createSession {q : CreateRoomRequest} {init : Json} : cfg.text.parse q.initJson = .ok init →
      Issued cfg J (.createRoom q) (.createSession q.roomId init)
  | cleanUp {q : CreateRoomRequest} : Issued cfg J (.createRoom q) (.closeRoom q.roomId)
  | getState {q : CreateRoomRequest} : Issued cfg J (.createRoom q) (.getState q.roomId)
  | writeState {q : CreateRoomRequest} {j : Json} : J j →
      Issued cfg J (.createRoom q)
        (.redis (.command (.set (roomKey q.roomId) (cfg.text.dump j) 3600)))
  | getRoomStatus {q : GameCommand} : Issued cfg J (.sendCommand q) (.getRoomStatus q.roomId)
  | processTurn {q : GameCommand} {action : Json} : cfg.text.parse q.action = .ok action →
      Issued cfg J (.sendCommand q) (.processTurn q.roomId action)
  | writeTurn {q : GameCommand} {j : Json} : J j →
      Issued cfg J (.sendCommand q)
        (.redis (.command (.set (roomKey q.roomId) (cfg.text.dump j) 3600)))
  | closeRoom {q : DestroyRoomRequest} : Issued cfg J (.destroyRoom q) (.closeRoom q.roomId)
  | destroySession {q : DestroyRoomRequest} :
      Issued cfg J (.destroyRoom q) (.destroySession q.roomId)
  | deleteRoomData {q : DestroyRoomRequest} :
      Issued cfg J (.destroyRoom q) (.redis (.command (.del (deletedKeys q.roomId))))
  | getRoomCount : Issued cfg J .getHeartbeat .getRoomCount
  | getMaxRooms : Issued cfg J .getHeartbeat .getMaxRooms
  | touchNodeHeartbeat : Issued cfg J .getHeartbeat
      (.redis (.command (.set (heartbeatKey cfg.podIp) "1" 300)))
  | isConnected {req : Request} : Issued cfg J req (.redis .isConnected)

/-- What is known of the results: `J` holds of every state and accepted response. -/
def PossibleResult (J : Json → Prop) : (op : ServerOp) → op.Res → Prop
  | .createRoomWithId roomId _ _, res => res = "" ∨ res = roomId
  | .getState _, res => ∀ state, res = .ok (.ok state) → J state
  | .processTurn _ _, res => ∀ turn, res = .ok turn → turn.accepted = true → J turn.response
  | _, _ => True

variable {sim : Simulator} {R : Type} {B : RedisBackend R} {cfg : ServiceConfig} {J : Json → Prop}
  {P : ServerOp → Prop}

theorem possibleResult_exec (hJ : ∀ j, sim.Returns j → J j) (op : ServerOp)
    (s : ServerState sim R) : PossibleResult J op (exec B op s).1 := by
  cases op with
  | createRoomWithId roomId roomName maxPlayers =>
    rcases s.rooms.createRoomWithId_cases roomId roomName maxPlayers with ⟨h, -⟩ | ⟨h, -⟩
    · exact Or.inl h
    · exact Or.inr h
  | getState sessionId => exact fun state h => hJ _ (BattleEngine.returns_of_getState h)
  | processTurn sessionId turnRequest =>
    exact fun turn h haccepted => hJ _ (BattleEngine.returns_of_processTurn h haccepted)
  | _ => trivial

section redis
variable {rest : Bool → Handler Outcome}
  (hrest : ∀ b, (rest b).IssuesGiven (PossibleResult J) P) (hconnected : P (.redis .isConnected))
include hrest hconnected

theorem setRoomData_given {roomId data : String}
    (hset : P (.redis (.command (.set (roomKey roomId) data 3600)))) :
    (redis (setRoomData roomId data) >>= rest).IssuesGiven (PossibleResult J) P := by
  refine ⟨hconnected, fun connected _ => ?_⟩
  cases connected with
  | false => exact hrest false
  | true =>
    refine ⟨hset, fun reply _ => ?_⟩
    cases reply with
    | none => exact hrest false
    | some reply => exact hrest _

theorem deleteRoomData_given {roomId : String}
    (hdel : P (.redis (.command (.del (deletedKeys roomId))))) :
    (redis (deleteRoomData roomId) >>= rest).IssuesGiven (PossibleResult J) P := by
  refine ⟨hconnected, fun connected _ => ?_⟩
  cases connected with
  | false => exact hrest false
  | true =>
    refine ⟨hdel, fun reply _ => ?_⟩
    cases reply with
    | none => exact hrest false
    | some reply => exact hrest _

theorem touchNodeHeartbeat_given {podIp : String}
    (hset : P (.redis (.command (.set (heartbeatKey podIp) "1" 300)))) :
    (redis (touchNodeHeartbeat podIp 30) >>= rest).IssuesGiven (PossibleResult J) P := by
  refine ⟨hconnected, fun connected _ => ?_⟩
  cases connected with
  | false => exact hrest false
  | true =>
    refine ⟨hset, fun reply _ => ?_⟩
    cases reply with
    | none => exact hrest false
    | some reply => exact hrest _

end redis

theorem createRoom_issued (q : CreateRoomRequest) :
    (createRoom cfg q).IssuesGiven (PossibleResult J) (Issued cfg J (.createRoom q)) := by
  refine ⟨.isInMaintenanceMode, fun maintaining _ => ?_⟩
  cases maintaining with
  | true => trivial
  | false =>
  refine ⟨.canCreateRoom, fun canCreate _ => ?_⟩
  cases canCreate with
  | false => trivial
  | true =>
  show Prog.IssuesGiven _ _ (if q.roomId.isEmpty = true then _ else _)
  split
  · trivial
  rename_i hempty
  have hid : q.roomId ≠ "" := by simpa using hempty
  split
  · trivial
  rename_i init hinit
  refine ⟨.createRoomWithId hid, fun actualRoomId hactual => ?_⟩
  show Prog.IssuesGiven _ _ (if actualRoomId.isEmpty = true then _ else _)
  split
  · trivial
  rename_i hactual'
  obtain rfl : actualRoomId = q.roomId := hactual.resolve_left (by simpa using hactual')
  refine ⟨.createSession hinit, fun session _ => ?_⟩
  match session with
  | .error _ => trivial
  | .ok (.error _) => exact ⟨.cleanUp, fun _ _ => trivial⟩
  | .ok (.ok ()) =>
    refine ⟨.getState, fun state hstate => ?_⟩
    match state, hstate with
    | .error _, _ | .ok (.error _), _ => trivial
    | .ok (.ok state), hstate =>
      exact setRoomData_given (fun _ => by trivial) .isConnected (.writeState (hstate state rfl))

theorem sendCommand_issued (q : GameCommand) :
    (sendCommand cfg q).IssuesGiven (PossibleResult J) (Issued cfg J (.sendCommand q)) := by
  refine ⟨.getRoomStatus, fun room _ => ?_⟩
  cases room with
  | none => trivial
  | some room =>
  show Prog.IssuesGiven _ _ (if (!room.isActive) = true then _ else _)
  split
  · trivial
  split
  · trivial
  rename_i action haction
  refine ⟨.processTurn haction, fun turn hturn => ?_⟩
  match turn, hturn with
  | .error _, _ => trivial
  | .ok ⟨false, response, error⟩, _ => trivial
  | .ok ⟨true, response, error⟩, hturn =>
    exact setRoomData_given (fun _ => by trivial) .isConnected (.writeTurn (hturn _ rfl rfl))

theorem destroyRoom_issued (q : DestroyRoomRequest) :
    (destroyRoom q).IssuesGiven (PossibleResult J) (Issued cfg J (.destroyRoom q)) := by
  refine ⟨.closeRoom, fun closed _ => ?_⟩
  cases closed with
  | false => trivial
  | true =>
    refine ⟨.destroySession, fun _ _ => ?_⟩
    exact deleteRoomData_given (fun _ => by trivial) .isConnected .deleteRoomData

theorem handle_issued (req : Request) :
    (handle cfg req).IssuesGiven (PossibleResult J) (Issued cfg J req) := by
  cases req with
  | createRoom q => exact createRoom_issued q
  | sendCommand q => exact sendCommand_issued q
  | destroyRoom q => exact destroyRoom_issued q
  | getHeartbeat =>
    refine ⟨.getRoomCount, fun _ _ => ⟨.getMaxRooms, fun _ _ => ?_⟩⟩
    exact touchNodeHeartbeat_given (fun _ => by trivial) .isConnected .touchNodeHeartbeat

theorem issued_of_reachable (hJ : ∀ j, sim.Returns j → J j)
    {ok : Config (ServerState sim R) Request ServerOp ServerOp.Res Outcome → Action Request → Prop}
    {s : ServerState sim R} {c : Config (ServerState sim R) Request ServerOp ServerOp.Res Outcome}
    (h : (system sim cfg B).Reachable ok s c) :
    (∀ e ∈ c.log, ∃ th, c.pool[e.tid]? = some th ∧ Issued cfg J th.req e.op) ∧
      ∀ t req op, c.AboutTo t req op → Issued cfg J req op :=
  System.issuedGiven_of_reachable (fun op s' => possibleResult_exec hJ op s') handle_issued h

end GameService
end PokemonServer
