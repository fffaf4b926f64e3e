import PokemonServer.Interleaving.Projection
import PokemonServer.SessionHistory

/-!
# Rooms do not interfere in memory

A run of handlers on any rooms is compared with the run in which only the handlers of
one room remain. The manager and the engine agree on that room throughout, as long as
no capacity check fails. The replies of Redis may differ, but a handler does not look
at them; it looks at `context_`, which no command sets.
-/

namespace PokemonServer
open Interleaving RedisClient

/-- `context_` is set by Connect and Disconnect only. -/
def RedisBackend.KeepsContext {R : Type} (B : RedisBackend R) : Prop :=
  ∀ cmd s, B.isConnected (B.command cmd s).2 = B.isConnected s

variable {sim : Simulator} {R : Type} {B : RedisBackend R} {cfg : ServiceConfig} {r : String}

def roomStep (r : String) : (op : ServerOp) → op.Res → Option Room → Option Room
  | .createRoomWithId roomId roomName maxPlayers, actualRoomId, room =>
    if roomId = r ∧ actualRoomId ≠ "" then some (newRoom roomId roomName maxPlayers) else room
  | .closeRoom roomId, _, room => if roomId = r then none else room
  | _, _, room => room

theorem lookup_rooms_exec {J : Json → Prop} {req : Request} {op : ServerOp}
    (hop : GameService.Issued cfg J req op) (s : ServerState sim R) (r : String) :
    (GameService.exec B op s).2.rooms.rooms.lookup r =
      roomStep r op (GameService.exec B op s).1 (s.rooms.rooms.lookup r) := by
  cases hop with
  | @createRoomWithId q hid =>
    rcases s.rooms.createRoomWithId_cases q.roomId "Battle Room" 2 with
      ⟨h1, h2, -⟩ | ⟨h1, -, -, -, h2⟩
    · simp [GameService.exec, roomStep, h1, h2]
    · simp only [GameService.exec, roomStep, h1, h2]
      by_cases hr : q.roomId = r
      · subst hr
        simp [hid]
      · rw [if_neg (fun h => hr h.1), Finmap.lookup_insert_of_ne _ (Ne.symm hr)]
  | @cleanUp q | @closeRoom q =>
    simp only [GameService.exec, roomStep, RoomManager.closeRoom]
    by_cases hr : q.roomId = r
    · subst hr
      rw [if_pos rfl]
      split
      · exact Finmap.lookup_erase _ _
      · rename_i hmem
        exact Finmap.lookup_eq_none.mpr hmem
    · rw [if_neg hr]
      split
      · exact Finmap.lookup_erase_ne (Ne.symm hr)
      · rfl
  | _ => rfl

structure SameSettings (B : RedisBackend R) (s s' : ServerState sim R) : Prop where
  isMaintaining : s'.rooms.isMaintaining = s.rooms.isMaintaining
  maxRooms : s'.rooms.maxRooms = s.rooms.maxRooms
  isConnected : B.isConnected s'.redis = B.isConnected s.redis

theorem SameSettings.trans {s s' s'' : ServerState sim R} (h : SameSettings B s s')
    (h' : SameSettings B s' s'') : SameSettings B s s'' :=
  ⟨h'.isMaintaining.trans h.isMaintaining, h'.maxRooms.trans h.maxRooms,
    h'.isConnected.trans h.isConnected⟩

theorem SameSettings.symm {s s' : ServerState sim R} (h : SameSettings B s s') :
    SameSettings B s' s :=
  ⟨h.isMaintaining.symm, h.maxRooms.symm, h.isConnected.symm⟩

theorem sameSettings_exec (hB : B.KeepsContext) (op : ServerOp) (s : ServerState sim R) :
    SameSettings B s (GameService.exec B op s).2 := by
  cases op with
  | createRoomWithId roomId roomName maxPlayers =>
    rcases s.rooms.createRoomWithId_cases roomId roomName maxPlayers with
      ⟨-, h, -⟩ | ⟨-, -, -, -, h⟩ <;>
    simp only [GameService.exec, h] <;> exact ⟨rfl, rfl, rfl⟩
  | closeRoom roomId =>
    simp only [GameService.exec, RoomManager.closeRoom]
    split <;> exact ⟨rfl, rfl, rfl⟩
  | redis op =>
    cases op with
    | isConnected => exact ⟨rfl, rfl, rfl⟩
    | command cmd => exact ⟨rfl, rfl, hB cmd s.redis⟩
  | _ => exact ⟨rfl, rfl, rfl⟩

def concerns (r : String) : Request → Bool
  | .createRoom q => q.roomId == r
  | .sendCommand q => q.roomId == r
  | .destroyRoom q => q.roomId == r
  | .getHeartbeat => false

/-- The number of rooms is below `max_rooms_` when it is checked. -/
def belowCapacity : ServerOp → ServerState sim R → Bool
  | .canCreateRoom, s | .createRoomWithId _ _ _, s => s.rooms.rooms.keys.card < s.rooms.maxRooms
  | _, _ => true

structure OnlyRoom (B : RedisBackend R) (r : String) (s s' : ServerState sim R) : Prop where
  room : s'.rooms.rooms.lookup r = s.rooms.rooms.lookup r
  session : s'.engine.sessions.lookup r = s.engine.sessions.lookup r
  only : s'.rooms.rooms.keys ⊆ {r}
  running : s.rooms.isMaintaining = false
  settings : SameSettings B s s'

namespace OnlyRoom
variable {s s' : ServerState sim R} {J : Json → Prop} {req : Request} {op : ServerOp}

theorem card_le (h : OnlyRoom B r s s') : s'.rooms.rooms.keys.card ≤ s.rooms.rooms.keys.card := by
  refine Finset.card_le_card fun q hq => ?_
  obtain rfl : q = r := Finset.mem_singleton.mp (h.only hq)
  rw [Finmap.mem_keys, ← Finmap.lookup_isSome] at hq ⊢
  rwa [← h.room]

theorem mem_iff (h : OnlyRoom B r s s') : r ∈ s'.rooms.rooms ↔ r ∈ s.rooms.rooms := by
  rw [← Finmap.lookup_isSome, ← Finmap.lookup_isSome, h.room]

theorem mem_sessions (h : OnlyRoom B r s s') : r ∈ s'.engine.sessions ↔ r ∈ s.engine.sessions := by
  rw [← Finmap.lookup_isSome, ← Finmap.lookup_isSome, h.session]

theorem belowCapacity (h : OnlyRoom B r s s') (hs : belowCapacity op s = true) :
    PokemonServer.belowCapacity op s' = true := by
  have hcard : s.rooms.rooms.keys.card < s.rooms.maxRooms →
      s'.rooms.rooms.keys.card < s'.rooms.maxRooms := by
    intro hlt
    rw [h.settings.maxRooms]
    exact h.card_le.trans_lt hlt
  cases op with
  | canCreateRoom | createRoomWithId _ _ _ =>
    exact decide_eq_true (hcard (of_decide_eq_true hs))
  | _ => rfl

theorem exec_fst (h : OnlyRoom B r s s') (hop : GameService.Issued cfg J req op)
    (hr : concerns r req = true) (hs : PokemonServer.belowCapacity op s = true)
    (hcommand : ∀ cmd, op ≠ .redis (.command cmd)) :
    (GameService.exec B op s').1 = (GameService.exec B op s).1 := by
  have hrunning' : s'.rooms.isMaintaining = false := h.settings.isMaintaining.trans h.running
  have hs' := h.belowCapacity hs
  cases hop with
  | isInMaintenanceMode => exact h.settings.isMaintaining
  | canCreateRoom =>
    simp only [PokemonServer.belowCapacity, decide_eq_true_eq] at hs hs'
    simp [GameService.exec, RoomManager.canCreateRoom, h.running, hrunning', hs, hs']
  | createRoomWithId hid =>
    obtain rfl := beq_iff_eq.mp hr
    simp only [PokemonServer.belowCapacity, decide_eq_true_eq] at hs hs'
    simp only [GameService.exec, RoomManager.createRoomWithId, h.running, hrunning',
      if_neg (not_le.mpr hs), if_neg (not_le.mpr hs'), h.mem_iff, Bool.false_eq_true, if_false]
    split <;> rfl
  | getRoomStatus =>
    obtain rfl := beq_iff_eq.mp hr
    exact h.room
  | cleanUp | closeRoom =>
    obtain rfl := beq_iff_eq.mp hr
    simp only [GameService.exec, RoomManager.closeRoom_fst, h.mem_iff]
  | createSession hinit =>
    obtain rfl := beq_iff_eq.mp hr
    simp only [GameService.exec, BattleEngine.createSession, h.mem_sessions]
    split
    · rfl
    · split
      · rfl
      · rfl
      · split <;> rfl
  | getState =>
    obtain rfl := beq_iff_eq.mp hr
    simp only [GameService.exec, BattleEngine.getState, h.session]
  | processTurn haction =>
    obtain rfl := beq_iff_eq.mp hr
    simp only [GameService.exec, BattleEngine.processTurn, h.session]
    split <;> rfl
  | destroySession =>
    obtain rfl := beq_iff_eq.mp hr
    simp only [GameService.exec, BattleEngine.destroySession, h.mem_sessions]
  | isConnected => exact h.settings.isConnected
  | writeState _ | writeTurn _ | deleteRoomData => exact absurd rfl (hcommand _)
  | getRoomCount | getMaxRooms | touchNodeHeartbeat => cases hr

end OnlyRoom

theorem concerns_of_ne {req : Request} {q : String} (hr : concerns r req = true) (hq : q ≠ r) :
    concerns q req = false := by
  cases req with
  | getHeartbeat => rfl
  | _ =>
    obtain rfl := beq_iff_eq.mp hr
    exact beq_eq_false_iff_ne.mpr hq.symm

section frame
variable {J : Json → Prop} {req : Request} {op : ServerOp}

theorem roomStep_of_not_concerns (hop : GameService.Issued cfg J req op)
    (hr : concerns r req = false) (res : op.Res) (room : Option Room) :
    roomStep r op res room = room := by
  cases hop with
  | createRoomWithId _ =>
    exact if_neg fun h => beq_eq_false_iff_ne.mp hr h.1
  | cleanUp | closeRoom => exact if_neg (beq_eq_false_iff_ne.mp hr)
  | _ => rfl

theorem sessionStep_of_not_concerns (hop : GameService.Issued cfg J req op)
    (hr : concerns r req = false) (res : op.Res) (session : Option sim.BattleSession) :
    sessionStep sim r op res session = session := by
  cases hop with
  | createSession _ =>
    match res with
    | .ok (.ok ()) => exact if_neg (beq_eq_false_iff_ne.mp hr)
    | .ok (.error _) | .error _ => rfl
  | processTurn _ => exact if_neg (beq_eq_false_iff_ne.mp hr)
  | destroySession => exact if_neg (beq_eq_false_iff_ne.mp hr)
  | _ => rfl

end frame

namespace OnlyRoom
variable {s s' : ServerState sim R} {J : Json → Prop} {req : Request} {op : ServerOp}

theorem stepKept (hB : B.KeepsContext) (h : OnlyRoom B r s s')
    (hop : GameService.Issued cfg J req op) (hr : concerns r req = true)
    (hs : PokemonServer.belowCapacity op s = true) :
    OnlyRoom B r (GameService.exec B op s).2 (GameService.exec B op s').2 where
  room := by
    rw [lookup_rooms_exec hop, lookup_rooms_exec hop, h.room]
    by_cases hcommand : ∀ cmd, op ≠ .redis (.command cmd)
    · rw [h.exec_fst hop hr hs hcommand]
    · obtain ⟨cmd, rfl⟩ := not_forall_not.mp hcommand
      rfl
  session := by
    rw [lookup_exec, lookup_exec, h.session]
    by_cases hcommand : ∀ cmd, op ≠ .redis (.command cmd)
    · rw [h.exec_fst hop hr hs hcommand]
    · obtain ⟨cmd, rfl⟩ := not_forall_not.mp hcommand
      rfl
  only := by
    intro q hq
    rw [Finset.mem_singleton]
    by_contra hne
    refine hne (Finset.mem_singleton.mp (h.only ?_))
    rw [Finmap.mem_keys, ← Finmap.lookup_isSome] at hq ⊢
    rwa [lookup_rooms_exec hop, roomStep_of_not_concerns hop (concerns_of_ne hr hne)] at hq
  running := (sameSettings_exec hB op s).isMaintaining.trans h.running
  settings := (sameSettings_exec hB op s).symm.trans (h.settings.trans (sameSettings_exec hB op s'))

theorem stepDropped (hB : B.KeepsContext) (h : OnlyRoom B r s s')
    (hop : GameService.Issued cfg J req op) (hr : concerns r req = false) :
    OnlyRoom B r (GameService.exec B op s).2 s' where
  room := by rw [lookup_rooms_exec hop, roomStep_of_not_concerns hop hr, h.room]
  session := by rw [lookup_exec, sessionStep_of_not_concerns hop hr, h.session]
  only := h.only
  running := (sameSettings_exec hB op s).isMaintaining.trans h.running
  settings := (sameSettings_exec hB op s).symm.trans h.settings

end OnlyRoom

namespace GameService

def isRedisCommand (op : ServerOp) : Prop := ∃ cmd, op = .redis (.command cmd)

theorem redisMethod_ignores {rest : Handler Outcome} (hrest : rest.Ignores isRedisCommand)
    {cmd : Command} {next : Bool → Handler Outcome} {next' : Option Reply → Handler Outcome}
    (hdisconnected : next false = rest)
    (hconnected : next true = .call (ServerOp.redis (.command cmd)) next')
    (hreply : ∀ reply, next' reply = rest) :
    (.call (.redis .isConnected) next : Handler Outcome).Ignores isRedisCommand := by
  refine ⟨?_, fun connected => ?_⟩
  · rintro ⟨cmd, hcmd⟩
    cases hcmd
  · cases connected with
    | false => exact hdisconnected ▸ hrest
    | true =>
      rw [hconnected]
      refine ⟨fun _ reply reply' => (hreply reply).trans (hreply reply').symm, fun reply => ?_⟩
      exact hreply reply ▸ hrest

theorem call_ignores {op : ServerOp} {next : op.Res → Handler Outcome}
    (hop : ∀ cmd, op ≠ .redis (.command cmd)) (hnext : ∀ r, (next r).Ignores isRedisCommand) :
    (Prog.call op next).Ignores isRedisCommand :=
  ⟨fun ⟨cmd, h⟩ => absurd h (hop cmd), hnext⟩

theorem createRoom_ignores (q : CreateRoomRequest) :
    (createRoom cfg q).Ignores isRedisCommand := by
  refine call_ignores nofun fun maintaining => ?_
  cases maintaining with
  | true => trivial
  | false =>
  refine call_ignores nofun fun canCreate => ?_
  cases canCreate with
  | false => trivial
  | true =>
  show Prog.Ignores _ (if q.roomId.isEmpty = true then _ else _)
  split
  · trivial
  split
  · trivial
  refine call_ignores nofun fun actualRoomId => ?_
  show Prog.Ignores _ (if actualRoomId.isEmpty = true then _ else _)
  split
  · trivial
  refine call_ignores nofun fun session => ?_
  match session with
  | .error _ => trivial
  | .ok (.error _) => exact call_ignores nofun fun _ => trivial
  | .ok (.ok ()) =>
    refine call_ignores nofun fun state => ?_
    match state with
    | .error _ | .ok (.error _) => trivial
    | .ok (.ok state) => exact redisMethod_ignores (by trivial) rfl rfl fun reply => by cases reply <;> rfl

theorem sendCommand_ignores (q : GameCommand) : (sendCommand cfg q).Ignores isRedisCommand := by
  refine call_ignores nofun fun room => ?_
  cases room with
  | none => trivial
  | some room =>
  show Prog.Ignores _ (if (!room.isActive) = true then _ else _)
  split
  · trivial
  split
  · trivial
  refine call_ignores nofun fun turn => ?_
  match turn with
  | .error _ => trivial
  | .ok ⟨false, response, error⟩ => trivial
  | .ok ⟨true, response, error⟩ => exact redisMethod_ignores (by trivial) rfl rfl fun reply => by cases reply <;> rfl

theorem destroyRoom_ignores (q : DestroyRoomRequest) :
    (destroyRoom q).Ignores isRedisCommand := by
  refine call_ignores nofun fun closed => ?_
  cases closed with
  | false => trivial
  | true =>
    refine call_ignores nofun fun _ => ?_
    exact redisMethod_ignores (by trivial) rfl rfl fun reply => by cases reply <;> rfl

theorem handle_ignores (req : Request) : (handle cfg req).Ignores isRedisCommand := by
  cases req with
  | createRoom q => exact createRoom_ignores q
  | sendCommand q => exact sendCommand_ignores q
  | destroyRoom q => exact destroyRoom_ignores q
  | getHeartbeat =>
    refine call_ignores nofun fun _ => call_ignores nofun fun _ => ?_
    exact redisMethod_ignores (by trivial) rfl rfl fun reply => by cases reply <;> rfl

theorem projects (hB : B.KeepsContext) (r : String) (s : ServerState sim R) :
    System.Projects (system sim cfg B) belowCapacity (concerns r) s (OnlyRoom B r) where
  kept {c t req op next s'} hreach hpool hr htest _ h := by
    have hop := (issued_of_reachable (fun _ _ => trivial) hreach).2 _ _ _ ⟨_, hpool⟩
    refine ⟨h.belowCapacity htest, rfl, ?_, h.stepKept hB (J := fun _ => True) hop hr htest⟩
    by_cases hcommand : ∀ cmd, op ≠ .redis (.command cmd)
    · exact congrArg next (h.exec_fst hop hr htest hcommand)
    · exact System.ignores_of_reachable handle_ignores hreach hpool
        (not_forall_not.mp hcommand) _ _
  dropped hreach hpool hr h :=
    h.stepDropped hB
      ((issued_of_reachable (J := fun _ => True) (fun _ _ => trivial) hreach).2 _ _ _ ⟨_, hpool⟩) hr

end GameService

/-- Deleting the handlers of all other rooms from a run leaves a run in which every
handler of room `r` is where it was, with the same answer if it has one, and in which the
room and its session are the same. -/
theorem rooms_isolated (hB : B.KeepsContext) (r : String) (maxRooms : ℕ) (redis : R)
    {as : List (Action Request)}
    {c : Config (ServerState sim R) Request ServerOp ServerOp.Res Outcome}
    (h : (GameService.system sim cfg B).replay (System.opTest belowCapacity)
      (Config.init (GameService.initState maxRooms redis)) as = some c) :
    ∃ c', (GameService.system sim cfg B).replay (System.opTest belowCapacity)
        (Config.init (GameService.initState maxRooms redis)) (project (concerns r) [] as) =
          some c' ∧
      c'.pool = c.pool.filter (fun th => concerns r th.req) ∧
      c'.shared.rooms.rooms.lookup r = c.shared.rooms.rooms.lookup r ∧
      c'.shared.engine.sessions.lookup r = c.shared.engine.sessions.lookup r := by
  have hinit : System.Follows (concerns r) (OnlyRoom B r)
      (Config.init (GameService.initState maxRooms redis) :
        Config (ServerState sim R) Request ServerOp ServerOp.Res Outcome)
      (Config.init (GameService.initState maxRooms redis)) :=
    ⟨⟨rfl, rfl, Finset.empty_subset _, rfl, ⟨rfl, rfl, rfl⟩⟩, rfl⟩
  obtain ⟨c', hreplay, hfollows⟩ :=
    (GameService.projects hB r (GameService.initState maxRooms redis)).replay .init hinit h
  exact ⟨c', hreplay, hfollows.pool, hfollows.shared.room, hfollows.shared.session⟩

namespace Sample

def twoRooms : List (Action Request) :=
  begin (create "s") ++ begin (create "r") ++ calls 0 3 ++ calls 1 5 ++ calls 0 4 ++ calls 1 2 ++
    begin (command "s") ++ begin (command "r") ++ calls 2 2 ++ calls 3 4 ++ calls 2 2 ++
    begin (destroy "s") ++ calls 4 4

end Sample

open Sample in
theorem rooms_isolated_in_twoRooms :
    ∃ c, service.replay (System.opTest belowCapacity) (Config.init state) twoRooms = some c ∧
      c.isQuiescent = true ∧ "r" ∈ c.shared.rooms.rooms ∧
      ∃ c', service.replay (System.opTest belowCapacity) (Config.init state)
          (project (concerns "r") [] twoRooms) = some c' ∧
        c'.pool = c.pool.filter (fun th => concerns "r" th.req) ∧
        c'.shared.rooms.rooms.lookup "r" = c.shared.rooms.rooms.lookup "r" ∧
        c'.shared.engine.sessions.lookup "r" = c.shared.engine.sessions.lookup "r" := by
  have hrun : (service.replay (System.opTest belowCapacity) (Config.init state) twoRooms).any
      (fun c => c.isQuiescent && decide ("r" ∈ c.shared.rooms.rooms)) = true := by
    decide +kernel
  obtain ⟨c, hc, hcheck⟩ := (Option.any_eq_true _ _).mp hrun
  rw [Bool.and_eq_true, decide_eq_true_eq] at hcheck
  exact ⟨c, hc, hcheck.1, hcheck.2, rooms_isolated (fun _ _ => rfl) "r" 10 ∅ hc⟩

end PokemonServer
