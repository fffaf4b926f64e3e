import PokemonServer.GameService
import PokemonServer.Interleaving.Protocol
import PokemonServer.RoomKeys

/-!
# The protocol of the handlers on their room

Each handler works on the one room id of its request. Its phase says what it has
done to the room and not yet completed: a room inserted without a session, a
failed creation not yet cleaned up, a snapshot not yet written, a room closed
whose session or snapshot is still there.
-/

namespace PokemonServer
open Interleaving RedisClient

inductive Phase where
  | idle
  | creating
  | failing
  | created
  | writing (data : String)
  | closing
  | deleting
  deriving DecidableEq

namespace RoomProtocol

def next (cfg : ServiceConfig) (req : Request) (φ : Phase) :
    (op : ServerOp) → op.Res → Option Phase
  | .isInMaintenanceMode, _ | .canCreateRoom, _ | .getRoomStatus _, _ | .getRoomCount, _
  | .getMaxRooms, _ => some φ
  | .createRoomWithId r _ _, res =>
    match req, φ with
    | .createRoom q, .idle =>
      if r = q.roomId ∧ r ≠ "" then some (if res = "" then .idle else .creating) else none
    | _, _ => none
  | .createSession r _, res =>
    match req, φ, res with
    | .createRoom q, .creating, .ok (.ok ()) => if r = q.roomId then some .created else none
    | .createRoom q, .creating, .ok (.error _) => if r = q.roomId then some .failing else none
    | _, _, _ => none
  | .getState r, res =>
    match req, φ, res with
    | .createRoom q, .created, .ok (.ok state) =>
      if r = q.roomId then some (.writing (cfg.text.dump state)) else none
    | .createRoom q, .created, _ => if r = q.roomId then some .idle else none
    | _, _, _ => none
  | .processTurn r _, res =>
    match req, φ, res with
    | .sendCommand q, .idle, .ok turn =>
      if r = q.roomId then
        some (if turn.accepted then .writing (cfg.text.dump turn.response) else .idle)
      else none
    | .sendCommand q, .idle, .error _ => if r = q.roomId then some .idle else none
    | _, _, _ => none
  | .closeRoom r, res =>
    match req, φ with
    | .createRoom q, .failing => if r = q.roomId then some .idle else none
    | .destroyRoom q, .idle =>
      if r = q.roomId then some (if res then .closing else .idle) else none
    | _, _ => none
  | .destroySession r, _ =>
    match req, φ with
    | .destroyRoom q, .closing => if r = q.roomId then some .deleting else none
    | _, _ => none
  | .redis .isConnected, connected =>
    match φ with
    | .idle | .writing _ | .deleting => some (if connected then φ else .idle)
    | _ => none
  | .redis (.command cmd), _ =>
    match req, φ, cmd with
    | _, .writing data, .set key value _ =>
      if key = roomKey req.roomId ∧ value = data then some .idle else none
    | .destroyRoom q, .deleting, .del keys =>
      if keys = deletedKeys q.roomId then some .idle else none
    | _, .idle, .set key _ _ => if key = heartbeatKey cfg.podIp then some .idle else none
    | _, _, _ => none

end RoomProtocol

open RoomProtocol in
def roomProtocol (cfg : ServiceConfig) : Protocol Request ServerOp ServerOp.Res Phase where
  start _ := .idle
  next := next cfg
  final φ := φ = .idle

namespace RoomProtocol

def Possible : (op : ServerOp) → op.Res → Prop
  | .createRoomWithId roomId _ _, res => res = "" ∨ res = roomId
  | .createSession _ _, .error _ => False
  | _, _ => True

variable {cfg : ServiceConfig}

theorem follows_setRoomData (req : Request) {data : String}
    {rest : Bool → GameService.Handler Outcome}
    (hrest : ∀ b, (roomProtocol cfg).Follows Possible req .idle (rest b)) :
    (roomProtocol cfg).Follows Possible req (.writing data)
      (GameService.redis (setRoomData req.roomId data) >>= rest) := by
  intro connected _
  cases connected with
  | false => exact ⟨.idle, rfl, hrest false⟩
  | true =>
    refine ⟨.writing data, rfl, fun reply _ => ?_⟩
    refine ⟨.idle, by simp [roomProtocol, next], ?_⟩
    cases reply with
    | none => exact hrest false
    | some reply => exact hrest _

theorem follows_deleteRoomData {q : DestroyRoomRequest}
    {rest : Bool → GameService.Handler Outcome}
    (hrest : ∀ b, (roomProtocol cfg).Follows Possible (.destroyRoom q) .idle (rest b)) :
    (roomProtocol cfg).Follows Possible (.destroyRoom q) .deleting
      (GameService.redis (deleteRoomData q.roomId) >>= rest) := by
  intro connected _
  cases connected with
  | false => exact ⟨.idle, rfl, hrest false⟩
  | true =>
    refine ⟨.deleting, rfl, fun reply _ => ?_⟩
    refine ⟨.idle, by simp [roomProtocol, next, deletedKeys], ?_⟩
    cases reply with
    | none => exact hrest false
    | some reply => exact hrest _

theorem follows_touchNodeHeartbeat {req : Request} {ttl : ℤ}
    {rest : Bool → GameService.Handler Outcome}
    (hrest : ∀ b, (roomProtocol cfg).Follows Possible req .idle (rest b)) :
    (roomProtocol cfg).Follows Possible req .idle
      (GameService.redis (touchNodeHeartbeat cfg.podIp ttl) >>= rest) := by
  intro connected _
  cases connected with
  | false => exact ⟨.idle, rfl, hrest false⟩
  | true =>
    refine ⟨.idle, rfl, fun reply _ => ?_⟩
    refine ⟨.idle, by simp [roomProtocol, next, heartbeatKey], ?_⟩
    cases reply with
    | none => exact hrest false
    | some reply => exact hrest _

theorem follows_createRoom (q : CreateRoomRequest) :
    (roomProtocol cfg).Follows Possible (.createRoom q) .idle (GameService.createRoom cfg q) := by
  intro maintaining _
  refine ⟨.idle, rfl, ?_⟩
  cases maintaining with
  | true => exact rfl
  | false =>
  intro canCreate _
  refine ⟨.idle, rfl, ?_⟩
  cases canCreate with
  | false => exact rfl
  | true =>
  show (roomProtocol cfg).Follows Possible _ _ (if q.roomId.isEmpty = true then _ else _)
  split
  · exact rfl
  rename_i hempty
  have hid : q.roomId ≠ "" := by simpa using hempty
  split
  · exact rfl
  rename_i initData _
  intro actualRoomId hactual
  rcases hactual with rfl | rfl
  · exact ⟨.idle, by simp [roomProtocol, next, hid], rfl⟩
  refine ⟨.creating, by simp [roomProtocol, next, hid], ?_⟩
  show (roomProtocol cfg).Follows Possible _ _ (if q.roomId.isEmpty = true then _ else _)
  rw [if_neg hempty]
  intro session hsession
  match session, hsession with
  | .ok (.error battleError), _ =>
    refine ⟨.failing, by simp [roomProtocol, next], fun _ _ => ?_⟩
    exact ⟨.idle, by simp [roomProtocol, next], rfl⟩
  | .ok (.ok ()), _ =>
    refine ⟨.created, by simp [roomProtocol, next], ?_⟩
    intro state _
    match state with
    | .error exn => exact ⟨.idle, by simp [roomProtocol, next], rfl⟩
    | .ok (.error _) => exact ⟨.idle, by simp [roomProtocol, next], rfl⟩
    | .ok (.ok roomState) =>
      exact ⟨.writing (cfg.text.dump roomState), by simp [roomProtocol, next],
        follows_setRoomData (.createRoom q) fun _ => rfl⟩

theorem follows_sendCommand (q : GameCommand) :
    (roomProtocol cfg).Follows Possible (.sendCommand q) .idle
      (GameService.sendCommand cfg q) := by
  intro room _
  refine ⟨.idle, rfl, ?_⟩
  cases room with
  | none => exact rfl
  | some room =>
  show (roomProtocol cfg).Follows Possible _ _ (if (!room.isActive) = true then _ else _)
  split
  · exact rfl
  split
  · exact rfl
  rename_i turnRequest _
  intro turn _
  match turn with
  | .error exn => exact ⟨.idle, by simp [roomProtocol, next], rfl⟩
  | .ok ⟨false, response, error⟩ => exact ⟨.idle, by simp [roomProtocol, next], rfl⟩
  | .ok ⟨true, response, error⟩ =>
    exact ⟨.writing (cfg.text.dump response), by simp [roomProtocol, next],
      follows_setRoomData (.sendCommand q) fun _ => rfl⟩

theorem follows_destroyRoom (q : DestroyRoomRequest) :
    (roomProtocol cfg).Follows Possible (.destroyRoom q) .idle (GameService.destroyRoom q) := by
  intro closed _
  cases closed with
  | false => exact ⟨.idle, by simp [roomProtocol, next], rfl⟩
  | true =>
    refine ⟨.closing, by simp [roomProtocol, next], fun destroyed _ => ?_⟩
    exact ⟨.deleting, by simp [roomProtocol, next],
      follows_deleteRoomData fun _ => rfl⟩

theorem follows_getHeartbeat :
    (roomProtocol cfg).Follows Possible .getHeartbeat .idle (GameService.getHeartbeat cfg) :=
  fun _ _ => ⟨.idle, rfl, fun _ _ => ⟨.idle, rfl, follows_touchNodeHeartbeat fun _ => rfl⟩⟩

theorem follows_handle (req : Request) :
    (roomProtocol cfg).Follows Possible req ((roomProtocol cfg).start req)
      (GameService.handle cfg req) := by
  cases req with
  | createRoom q => exact follows_createRoom q
  | sendCommand q => exact follows_sendCommand q
  | destroyRoom q => exact follows_destroyRoom q
  | getHeartbeat => exact follows_getHeartbeat

variable {sim : Simulator} {R : Type} {B : RedisBackend R}

def isRead : ServerOp → Bool
  | .isInMaintenanceMode | .canCreateRoom | .getRoomStatus _ | .getRoomCount | .getMaxRooms => true
  | _ => false

/-- Everything one call can do under the protocol: from a phase of a request in
state `s` to the next phase and state. -/
inductive Effect (cfg : ServiceConfig) (B : RedisBackend R) (s : ServerState sim R) :
    Request → Phase → ServerOp → Phase → ServerState sim R → Prop
  | read {req : Request} {φ : Phase} {op : ServerOp} : isRead op = true → Effect cfg B s req φ op φ s
  | insert {q : CreateRoomRequest} {name : String} {players : ℤ} :
      q.roomId ≠ "" → q.roomId ∉ s.rooms.rooms →
      (s.rooms.createRoomWithId q.roomId name players).1 = q.roomId →
      Effect cfg B s (.createRoom q) .idle (.createRoomWithId q.roomId name players) .creating
        { s with rooms := (s.rooms.createRoomWithId q.roomId name players).2 }
  | refused {q : CreateRoomRequest} {name : String} {players : ℤ} :
      (s.rooms.createRoomWithId q.roomId name players).1 = "" →
      Effect cfg B s (.createRoom q) .idle (.createRoomWithId q.roomId name players) .idle s
  | openSession {q : CreateRoomRequest} {init : Json} {session : sim.BattleSession} :
      sim.createFromJson init = .ok (.ok session) → q.roomId ∉ s.engine.sessions →
      Effect cfg B s (.createRoom q) .creating (.createSession q.roomId init) .created
        { s with engine := ⟨s.engine.sessions.insert q.roomId session⟩ }
  | sessionFails {q : CreateRoomRequest} {init : Json} :
      Effect cfg B s (.createRoom q) .creating (.createSession q.roomId init) .failing s
  | readState {q : CreateRoomRequest} {state : Json} :
      s.engine.getState q.roomId = .ok (.ok state) →
      Effect cfg B s (.createRoom q) .created (.getState q.roomId)
        (.writing (cfg.text.dump state)) s
  | noState {q : CreateRoomRequest} :
      (∀ state, s.engine.getState q.roomId ≠ .ok (.ok state)) →
      Effect cfg B s (.createRoom q) .created (.getState q.roomId) .idle s
  | accepted {q : GameCommand} {action : Json} {turn : TurnResult} :
      (s.engine.processTurn q.roomId action).1 = .ok turn → turn.accepted = true →
      Effect cfg B s (.sendCommand q) .idle (.processTurn q.roomId action)
        (.writing (cfg.text.dump turn.response))
        { s with engine := (s.engine.processTurn q.roomId action).2 }
  | rejected {q : GameCommand} {action : Json} :
      (∀ turn, (s.engine.processTurn q.roomId action).1 = .ok turn → turn.accepted = false) →
      Effect cfg B s (.sendCommand q) .idle (.processTurn q.roomId action) .idle
        { s with engine := (s.engine.processTurn q.roomId action).2 }
  | cleanUp {q : CreateRoomRequest} :
      Effect cfg B s (.createRoom q) .failing (.closeRoom q.roomId) .idle
        { s with rooms := (s.rooms.closeRoom q.roomId).2 }
  | close {q : DestroyRoomRequest} : q.roomId ∈ s.rooms.rooms →
      Effect cfg B s (.destroyRoom q) .idle (.closeRoom q.roomId) .closing
        { s with rooms := (s.rooms.closeRoom q.roomId).2 }
  | closeAbsent {q : DestroyRoomRequest} : q.roomId ∉ s.rooms.rooms →
      Effect cfg B s (.destroyRoom q) .idle (.closeRoom q.roomId) .idle s
  | dropSession {q : DestroyRoomRequest} :
      Effect cfg B s (.destroyRoom q) .closing (.destroySession q.roomId) .deleting
        { s with engine := (s.engine.destroySession q.roomId).2 }
  | connected {req : Request} {φ : Phase} : Effect cfg B s req φ (.redis .isConnected) φ s
  | disconnected {req : Request} {φ : Phase} :
      B.isConnected s.redis = false → φ = .idle ∨ (∃ data, φ = .writing data) ∨ φ = .deleting →
      Effect cfg B s req φ (.redis .isConnected) .idle s
  | writeSnapshot {req : Request} {data : String} {ex : ℤ} :
      Effect cfg B s req (.writing data) (.redis (.command (.set (roomKey req.roomId) data ex)))
        .idle { s with redis := (B.command (.set (roomKey req.roomId) data ex) s.redis).2 }
  | deleteSnapshot {q : DestroyRoomRequest} :
      Effect cfg B s (.destroyRoom q) .deleting
        (.redis (.command (.del (deletedKeys q.roomId)))) .idle
        { s with redis := (B.command (.del (deletedKeys q.roomId)) s.redis).2 }
  | heartbeat {req : Request} {value : String} {ex : ℤ} :
      Effect cfg B s req .idle (.redis (.command (.set (heartbeatKey cfg.podIp) value ex))) .idle
        { s with redis := (B.command (.set (heartbeatKey cfg.podIp) value ex) s.redis).2 }

theorem effect_of_next (s : ServerState sim R) {req : Request} {φ φ' : Phase} {op : ServerOp}
    (h : next cfg req φ op (GameService.exec B op s).1 = some φ') :
    Effect cfg B s req φ op φ' (GameService.exec B op s).2 := by
  cases op with
  | isInMaintenanceMode | canCreateRoom | getRoomStatus _ | getRoomCount | getMaxRooms =>
    cases h
    exact .read rfl
  | createRoomWithId r name players =>
    simp only [next] at h
    split at h
    · rename_i q
      split at h
      · rename_i hr
        obtain ⟨rfl, hne⟩ := hr
        rcases s.rooms.createRoomWithId_cases q.roomId name players with
          ⟨h1, h2, -⟩ | ⟨h1, hnot, -, -, -⟩
        · simp only [GameService.exec, h1, h2, if_true, Option.some.injEq] at h ⊢
          subst h
          exact .refused h1
        · simp only [GameService.exec, h1, hne, if_false, Option.some.injEq] at h
          subst h
          exact .insert hne hnot h1
      · cases h
    · cases h
  | createSession r init =>
    simp only [next] at h
    rcases s.engine.createSession_cases r init with
      ⟨session, -, hsession, hnot, he⟩ | ⟨error, he⟩ | ⟨exn, -, he⟩ <;>
    simp only [GameService.exec, he] at h ⊢
    · split at h <;> simp_all
      obtain ⟨rfl, rfl⟩ := h
      exact .openSession hsession hnot
    · split at h <;> simp_all
      obtain ⟨rfl, rfl⟩ := h
      exact .sessionFails
    · cases h
  | getState r =>
    simp only [next] at h
    split at h <;> simp only [Option.ite_none_right_eq_some, Option.some.injEq, reduceCtorEq] at h
    · rename_i q state hstate
      obtain ⟨rfl, rfl⟩ := h
      exact .readState hstate
    · rename_i q hres
      obtain ⟨rfl, rfl⟩ := h
      exact .noState fun state hstate => hres state hstate
  | processTurn r action =>
    simp only [next] at h
    split at h <;> simp only [Option.ite_none_right_eq_some, Option.some.injEq, reduceCtorEq] at h
    · rename_i q turn hturn
      obtain ⟨rfl, rfl⟩ := h
      by_cases ha : turn.accepted = true
      · rw [if_pos ha]
        exact .accepted hturn ha
      · rw [if_neg ha]
        refine .rejected fun turn' hturn' => ?_
        have : turn' = turn := by simp_all [GameService.exec]
        simpa [this] using ha
    · rename_i q exn hexn
      obtain ⟨rfl, rfl⟩ := h
      exact .rejected fun turn hturn => by simp_all [GameService.exec]
  | closeRoom r =>
    simp only [next] at h
    split at h <;> simp only [Option.ite_none_right_eq_some, Option.some.injEq, reduceCtorEq] at h
    · rename_i q
      obtain ⟨rfl, rfl⟩ := h
      exact .cleanUp
    · rename_i q
      obtain ⟨rfl, rfl⟩ := h
      by_cases hmem : q.roomId ∈ s.rooms.rooms
      · rw [if_pos (by simp [GameService.exec, RoomManager.closeRoom, hmem])]
        exact .close hmem
      · rw [if_neg (by simp [GameService.exec, RoomManager.closeRoom, hmem])]
        simp only [GameService.exec, RoomManager.closeRoom, hmem, if_false]
        exact .closeAbsent hmem
  | destroySession r =>
    simp only [next] at h
    split at h <;> simp only [Option.ite_none_right_eq_some, Option.some.injEq, reduceCtorEq] at h
    obtain ⟨rfl, rfl⟩ := h
    exact .dropSession
  | redis op =>
    cases op with
    | isConnected =>
      simp only [next, GameService.exec] at h ⊢
      cases hc : B.isConnected s.redis with
      | true =>
        have : φ' = φ := by split at h <;> simp_all
        exact this ▸ .connected
      | false =>
        split at h <;> simp only [hc, Option.some.injEq, reduceCtorEq, Bool.false_eq_true, if_false] at h
        all_goals
          subst h
          exact .disconnected hc (by simp)
    | command cmd =>
      simp only [next] at h
      split at h <;>
        simp only [Option.ite_none_right_eq_some, Option.some.injEq, reduceCtorEq] at h
      · obtain ⟨⟨rfl, rfl⟩, rfl⟩ := h
        exact .writeSnapshot
      · obtain ⟨rfl, rfl⟩ := h
        exact .deleteSnapshot
      · obtain ⟨rfl, rfl⟩ := h
        exact .heartbeat

end RoomProtocol

/-- Creating a session never throws: it succeeds or returns an error. -/
def Simulator.CreationReturns (sim : Simulator) : Prop :=
  ∀ init exn, sim.createFromJson init ≠ .error exn

namespace RoomProtocol
variable {sim : Simulator} {R : Type} {B : RedisBackend R} {cfg : ServiceConfig}

theorem exec_possible (hsim : sim.CreationReturns) (op : ServerOp) (s : ServerState sim R) :
    Possible op (GameService.exec B op s).1 := by
  cases op with
  | createRoomWithId r name players =>
    rcases s.rooms.createRoomWithId_cases r name players with ⟨h, -⟩ | ⟨h, -⟩
    · exact Or.inl h
    · exact Or.inr h
  | createSession r init =>
    rcases s.engine.createSession_cases r init with
      ⟨session, -, -, -, he⟩ | ⟨error, he⟩ | ⟨exn, hexn, -⟩
    · simp [GameService.exec, he, Possible]
    · simp [GameService.exec, he, Possible]
    · exact absurd hexn (hsim init exn)
  | _ => trivial

variable {allowed : Request → Prop}
  {guard : View (ServerState sim R) Request ServerOp ServerOp.Res Phase → ℕ → Request →
    ServerOp → Prop}
  {s₀ : ServerState sim R} {c : Config (ServerState sim R) Request ServerOp ServerOp.Res Outcome}

theorem tracks (hsim : sim.CreationReturns)
    (h : (GameService.system sim cfg B).Reachable ((roomProtocol cfg).guarded allowed guard) s₀ c) :
    (roomProtocol cfg).Tracks Possible c ∧
      (roomProtocol cfg).ViewReachable (GameService.system sim cfg B) allowed guard s₀
        ((roomProtocol cfg).view c) :=
  Protocol.tracks_of_reachable (exec_possible hsim) (fun req _ => follows_handle req) h

theorem effect_of_aboutTo (hsim : sim.CreationReturns)
    (h : (roomProtocol cfg).Tracks Possible c) {t : ℕ} {req : Request} {op : ServerOp}
    (hop : c.AboutTo t req op) :
    ∃ φ φ', ((roomProtocol cfg).view c).phases t = some (req, φ) ∧
      Effect cfg B c.shared req φ op φ' (GameService.exec B op c.shared).2 := by
  obtain ⟨next, hpool⟩ := hop
  obtain ⟨φ, φ', hφ, hnext, -, -⟩ :=
    h.run (S := GameService.system sim cfg B) (exec_possible hsim) hpool
  exact ⟨φ, φ', hφ, effect_of_next c.shared hnext⟩

end RoomProtocol
end PokemonServer
