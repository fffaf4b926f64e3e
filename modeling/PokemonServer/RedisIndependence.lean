import PokemonServer.GameService
import PokemonServer.Interleaving.Refinement

/-!
# The battle service does not depend on Redis

No handler looks at the result of SetRoomData, DeleteRoomData or TouchNodeHeartbeat. So
whatever the connection to Redis does (it answers, refuses, is lost and is established
again), every run is one of a server that has never had a connection: the handlers
answer alike, and at every moment the rooms and the sessions are the same.
-/

namespace PokemonServer
open Interleaving

/-- A client whose `context_` is null. -/
def RedisBackend.disconnected : RedisBackend Unit where
  isConnected _ := false
  command _ _ := (none, ())

def ServerState.withoutRedis {sim : Simulator} {R : Type} (s : ServerState sim R) :
    ServerState sim Unit := ⟨s.rooms, s.engine, ()⟩

inductive RedisStage where
  | idle
  | connected

inductive RedisStep : RedisStage → Exchange ServerOp ServerOp.Res → RedisStage →
    Option (Exchange ServerOp ServerOp.Res) → Prop
  | other {op : ServerOp} (r : op.Res) : (∀ o, op ≠ .redis o) →
      RedisStep .idle ⟨op, r⟩ .idle (some ⟨op, r⟩)
  | disconnected : RedisStep .idle ⟨.redis .isConnected, false⟩ .idle
      (some ⟨.redis .isConnected, false⟩)
  | connected : RedisStep .idle ⟨.redis .isConnected, true⟩ .connected
      (some ⟨.redis .isConnected, false⟩)
  | command (cmd : Command) (reply : Option Reply) :
      RedisStep .connected ⟨.redis (.command cmd), reply⟩ .idle none

def redisDiscipline : Discipline ServerOp ServerOp.Res ServerOp ServerOp.Res RedisStage where
  idle := .idle
  possible _ _ := True
  step := RedisStep

namespace GameService
open Discipline
variable {cfg : ServiceConfig}

abbrev IgnoresRedis (p : Handler Outcome) : Prop := redisDiscipline.Mirrors .idle p p

theorem ignoresRedis_call {op : ServerOp} {next : op.Res → Handler Outcome}
    (hop : ∀ o, op ≠ .redis o) (hnext : ∀ r, IgnoresRedis (next r)) :
    IgnoresRedis (.call op next) :=
  .commit fun r _ => ⟨.idle, r, .other r hop, hnext r⟩

theorem ignoresRedis_method {rest : Handler Outcome} (hrest : IgnoresRedis rest)
    {cmd : Command} {next : Bool → Handler Outcome} {next' : Option Reply → Handler Outcome}
    (hdisconnected : next false = rest)
    (hconnected : next true = .call (ServerOp.redis (.command cmd)) next')
    (hreply : ∀ reply, next' reply = rest) :
    IgnoresRedis (.call (.redis .isConnected) next) := by
  intro connected _
  cases connected with
  | false => exact ⟨.idle, some ⟨_, _⟩, _, .disconnected, .cons .nil, hdisconnected ▸ hrest⟩
  | true =>
    refine ⟨.connected, some ⟨_, _⟩, _, .connected, .cons .nil, ?_⟩
    rw [hconnected, hdisconnected]
    exact .silent fun reply _ => ⟨.idle, .command cmd reply, hreply reply ▸ hrest⟩

theorem ignoresRedis_ret (outcome : Outcome) : IgnoresRedis (.ret outcome) := .ret outcome

theorem createRoom_ignoresRedis (q : CreateRoomRequest) : IgnoresRedis (createRoom cfg q) := by
  refine ignoresRedis_call (fun o h => by cases h) fun maintaining => ?_
  cases maintaining with
  | true => exact ignoresRedis_ret _
  | false =>
  refine ignoresRedis_call (fun o h => by cases h) fun canCreate => ?_
  cases canCreate with
  | false => exact ignoresRedis_ret _
  | true =>
  show IgnoresRedis (if q.roomId.isEmpty = true then _ else _)
  split
  · exact ignoresRedis_ret _
  split
  · exact ignoresRedis_ret _
  refine ignoresRedis_call (fun o h => by cases h) fun actualRoomId => ?_
  show IgnoresRedis (if actualRoomId.isEmpty = true then _ else _)
  split
  · exact ignoresRedis_ret _
  refine ignoresRedis_call (fun o h => by cases h) fun session => ?_
  rcases session with _ | (_ | ⟨⟩)
  · exact ignoresRedis_ret _
  · exact ignoresRedis_call (fun o h => by cases h) fun _ => ignoresRedis_ret _
  refine ignoresRedis_call (fun o h => by cases h) fun state => ?_
  rcases state with _ | (_ | state)
  · exact ignoresRedis_ret _
  · exact ignoresRedis_ret _
  · exact ignoresRedis_method (ignoresRedis_ret _) rfl rfl fun reply => by cases reply <;> rfl

theorem sendCommand_ignoresRedis (q : GameCommand) : IgnoresRedis (sendCommand cfg q) := by
  refine ignoresRedis_call (fun o h => by cases h) fun room => ?_
  cases room with
  | none => exact ignoresRedis_ret _
  | some room =>
  show IgnoresRedis (if (!room.isActive) = true then _ else _)
  split
  · exact ignoresRedis_ret _
  split
  · exact ignoresRedis_ret _
  refine ignoresRedis_call (fun o h => by cases h) fun turn => ?_
  rcases turn with _ | ⟨accepted, response, error⟩
  · exact ignoresRedis_ret _
  cases accepted with
  | false => exact ignoresRedis_ret _
  | true =>
    exact ignoresRedis_method (ignoresRedis_ret _) rfl rfl fun reply => by cases reply <;> rfl

theorem destroyRoom_ignoresRedis (q : DestroyRoomRequest) : IgnoresRedis (destroyRoom q) := by
  refine ignoresRedis_call (fun o h => by cases h) fun closed => ?_
  cases closed with
  | false => exact ignoresRedis_ret _
  | true =>
  refine ignoresRedis_call (fun o h => by cases h) fun _ => ?_
  exact ignoresRedis_method (ignoresRedis_ret _) rfl rfl fun reply => by cases reply <;> rfl

theorem getHeartbeat_ignoresRedis : IgnoresRedis (getHeartbeat cfg) := by
  refine ignoresRedis_call (fun o h => by cases h) fun activeRooms => ?_
  refine ignoresRedis_call (fun o h => by cases h) fun maxRooms => ?_
  exact ignoresRedis_method (ignoresRedis_ret _) rfl rfl fun reply => by cases reply <;> rfl

theorem handle_ignoresRedis (req : Request) : IgnoresRedis (handle cfg req) := by
  cases req with
  | createRoom q => exact createRoom_ignoresRedis q
  | sendCommand q => exact sendCommand_ignoresRedis q
  | destroyRoom q => exact destroyRoom_ignoresRedis q
  | getHeartbeat => exact getHeartbeat_ignoresRedis

variable {sim : Simulator} {R : Type} {B : RedisBackend R}

theorem exec_withoutRedis {op : ServerOp} (hop : ∀ o, op ≠ .redis o) (s : ServerState sim R) :
    exec .disconnected op s.withoutRedis = ((exec B op s).1, (exec B op s).2.withoutRedis) := by
  cases op with
  | redis o => exact absurd rfl (hop o)
  | _ => rfl

theorem exec_redis_withoutRedis (o : RedisOp) (s : ServerState sim R) :
    (exec B (.redis o) s).2.withoutRedis = s.withoutRedis := by
  cases o <;> rfl

theorem refines_disconnected (cfg : ServiceConfig) (B : RedisBackend R) :
    (system sim cfg .disconnected).Refines redisDiscipline (system sim cfg B) (fun _ _ => True)
      fun a s _ => a = s.withoutRedis where
  possible _ _ := trivial
  code := handle_ignoresRedis
  step a s φ t op φ' x h _ _ hstep := by
    subst h
    generalize hr : ((system sim cfg B).exec op s).1 = r at hstep
    generalize φ t = ψ at hstep
    cases hstep with
    | other r hop => exact ⟨_, ⟨rfl, hr ▸ exec_withoutRedis hop s⟩, rfl⟩
    | disconnected | connected => exact ⟨_, ⟨rfl, rfl⟩, (exec_redis_withoutRedis _ s).symm⟩
    | command cmd reply => exact ⟨_, rfl, (exec_redis_withoutRedis _ s).symm⟩

/-- Whatever Redis does, the run is one of a server without Redis. -/
theorem explained_without_redis (B : RedisBackend R) (maxRooms : ℕ) (redis : R)
    {as : List (Action Request)}
    {c : Config (ServerState sim R) Request ServerOp ServerOp.Res Outcome}
    (h : (system sim cfg B).replay (fun _ _ => true) (Config.init (initState maxRooms redis)) as =
      some c) :
    ∃ bs d, Explains (system sim cfg .disconnected) ServerState.withoutRedis
        (initState maxRooms ()) as c bs d ∧ d.shared = c.shared.withoutRedis := by
  obtain ⟨bs, d, -, hexplains, hshared⟩ := (refines_disconnected cfg B).exists_explains_with
    (fun _ _ _ _ _ _ _ _ _ => trivial) (fun _ _ _ h _ => h)
    (show initState maxRooms () = (initState maxRooms redis).withoutRedis from rfl) h
  exact ⟨bs, d, hexplains, hshared⟩

end GameService

namespace Sample

def lossyRedis : RedisBackend ℕ where
  isConnected _ := true
  command _ answered := (if answered < 2 then some (.status "OK") else none, answered + 1)

def playedThroughLoss : List (Action Request) :=
  begin (create "r") ++ calls 0 7 ++ begin (command "r") ++ begin (command "r") ++ calls 1 3 ++
    calls 2 4 ++ calls 1 1 ++ begin (destroy "r") ++ calls 3 4

end Sample

namespace GameService
open Sample

theorem playedThroughLoss_without_redis : ∃ c bs d,
    (system simulator config lossyRedis).replay (fun _ _ => true)
        (Config.init (initState 10 0)) playedThroughLoss = some c ∧
      Explains (system simulator config .disconnected) ServerState.withoutRedis
        (initState 10 ()) playedThroughLoss c bs d ∧ d.shared = c.shared.withoutRedis := by
  have hruns : ((system simulator config lossyRedis).replay (fun _ _ => true)
      (Config.init (initState 10 0)) playedThroughLoss).isSome = true := by decide +kernel
  obtain ⟨c, hc⟩ := Option.isSome_iff_exists.mp hruns
  obtain ⟨bs, d, hexplains⟩ := explained_without_redis lossyRedis 10 0 hc
  exact ⟨c, bs, d, hc, hexplains⟩

end GameService
end PokemonServer
