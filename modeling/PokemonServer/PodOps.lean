import PokemonServer.Pod

/-!
# The operations of a pod's threads

What the threads of one server can execute, whatever the results are: they add to no
set in Redis, they create rooms for a nonnegative number of players, and they switch
maintenance mode on but never off.
-/

namespace PokemonServer
open Interleaving RedisClient

def RedisOp.NoSetAdd : RedisOp → Prop
  | .command (.sadd _ _) => False
  | _ => True

def ServerOp.Ordinary : ServerOp → Prop
  | .createRoomWithId _ _ maxPlayers => 0 ≤ maxPlayers
  | .redis op => op.NoSetAdd
  | _ => True

def PodOp.Ordinary : PodOp → Prop
  | .server op => op.Ordinary
  | .setMaintenanceMode isMaintaining => isMaintaining = true
  | _ => True

def PodOp.Served : PodOp → Prop
  | .server (.createRoomWithId _ _ maxPlayers) => 0 ≤ maxPlayers
  | .setMaintenanceMode isMaintaining => isMaintaining = true
  | _ => True

theorem PodOp.Ordinary.served {op : PodOp} (h : op.Ordinary) : op.Served := by
  cases op with
  | server op =>
    cases op with
    | createRoomWithId roomId roomName maxPlayers => exact h
    | _ => trivial
  | setMaintenanceMode isMaintaining => exact h
  | _ => trivial

namespace RedisClient

theorem connected_issues {α : Type} {P : RedisOp → Prop} (hconnected : P .isConnected) {a : α}
    {p : Client α} (hp : p.Issues P) :
    (do if !(← isConnected) then return a else p : Client α).Issues P := by
  refine ⟨hconnected, fun connected => ?_⟩
  cases connected with
  | false => trivial
  | true => exact hp

theorem touchNodeHeartbeat_issues (podIp : String) (ttlSeconds : ℤ) :
    (touchNodeHeartbeat podIp ttlSeconds).Issues RedisOp.NoSetAdd := by
  apply connected_issues trivial
  refine ⟨trivial, fun reply => ?_⟩
  cases reply <;> trivial

theorem unregisterNode_issues (podIp : String) :
    (unregisterNode podIp).Issues RedisOp.NoSetAdd := by
  apply connected_issues trivial
  refine ⟨trivial, fun reply => ?_⟩
  cases reply <;> trivial

theorem getAllNodes_issues : getAllNodes.Issues RedisOp.NoSetAdd := by
  apply connected_issues trivial
  refine ⟨trivial, fun reply => ?_⟩
  match reply with
  | some (.array _) | none | some (.status _) | some (.error _) | some (.integer _)
  | some (.string _) | some .nil => trivial

theorem setRoomData_issues (roomId data : String) :
    (setRoomData roomId data).Issues RedisOp.NoSetAdd := by
  apply connected_issues trivial
  refine ⟨trivial, fun reply => ?_⟩
  cases reply <;> trivial

theorem deleteRoomData_issues (roomId : String) :
    (deleteRoomData roomId).Issues RedisOp.NoSetAdd := by
  apply connected_issues trivial
  refine ⟨trivial, fun reply => ?_⟩
  cases reply <;> trivial

section scan
variable {β : Type} {visit : String → String → β → Client β}
  (hvisit : ∀ key value acc, (visit key value acc).Issues RedisOp.NoSetAdd)
include hvisit

theorem scanRooms_issues (fuel cursor : ℕ) (acc : β) :
    (scanRooms visit fuel cursor acc).Issues RedisOp.NoSetAdd := by
  induction fuel generalizing cursor acc with
  | zero => trivial
  | succ fuel ih =>
    have hnext : ∀ (cursor : ℕ) (acc : β), (if cursor ≠ 0 then scanRooms visit fuel cursor acc
        else return some acc : Client (Option β)).Issues RedisOp.NoSetAdd := by
      intro cursor acc
      split
      · exact ih cursor acc
      · trivial
    refine ⟨trivial, fun reply => ?_⟩
    match reply with
    | some (.array (_ :: .array keys :: _)) =>
      exact (visitKeys_issues (fun _ => trivial) hvisit keys acc).bind fun acc => hnext _ acc
    | some (.array (_ :: .status _ :: _)) | some (.array (_ :: .error _ :: _))
    | some (.array (_ :: .integer _ :: _)) | some (.array (_ :: .string _ :: _))
    | some (.array (_ :: .nil :: _)) => exact hnext _ acc
    | some (.array []) | some (.array [_]) | none | some (.status _) | some (.error _)
    | some (.integer _) | some (.string _) | some .nil => trivial

end scan

theorem getAllRoomSnapshots_issues (fuel : ℕ) :
    (getAllRoomSnapshots fuel).Issues RedisOp.NoSetAdd := by
  apply connected_issues trivial
  exact scanRooms_issues (fun key value acc => show Prog.Issues _ (.ret _) from trivial) fuel 0 []

end RedisClient

namespace GameService
variable (cfg : ServiceConfig)

theorem redis_issues {α : Type} {p : Client α} (hp : p.Issues RedisOp.NoSetAdd) :
    (redis p).Issues ServerOp.Ordinary :=
  Prog.Issues.expand (f := fun o => .op (ServerOp.redis o)) (fun _ ho => ⟨ho, fun _ => trivial⟩) hp

theorem refreshHeartbeat_issues (podIp : String) (ttlSeconds : ℤ) :
    (refreshHeartbeat podIp ttlSeconds).Issues RedisOp.NoSetAdd := by
  refine ⟨trivial, fun connected => ?_⟩
  cases connected with
  | false => trivial
  | true => exact (touchNodeHeartbeat_issues podIp ttlSeconds).bind fun _ => trivial

theorem createRoom_issues (q : CreateRoomRequest) :
    (createRoom cfg q).Issues ServerOp.Ordinary := by
  refine ⟨trivial, fun maintaining => ?_⟩
  cases maintaining with
  | true => trivial
  | false =>
  refine ⟨trivial, fun canCreate => ?_⟩
  cases canCreate with
  | false => trivial
  | true =>
  show Prog.Issues _ (if q.roomId.isEmpty = true then _ else _)
  split
  · trivial
  split
  · trivial
  refine ⟨show (0 : ℤ) ≤ 2 by decide, fun actualRoomId => ?_⟩
  show Prog.Issues _ (if actualRoomId.isEmpty = true then _ else _)
  split
  · trivial
  refine ⟨trivial, fun session => ?_⟩
  match session with
  | .error _ => trivial
  | .ok (.error _) => exact ⟨trivial, fun _ => trivial⟩
  | .ok (.ok ()) =>
    refine ⟨trivial, fun state => ?_⟩
    match state with
    | .error _ | .ok (.error _) => trivial
    | .ok (.ok _) => exact (redis_issues (setRoomData_issues _ _)).bind fun _ => trivial

theorem sendCommand_issues (q : GameCommand) : (sendCommand cfg q).Issues ServerOp.Ordinary := by
  refine ⟨trivial, fun room => ?_⟩
  cases room with
  | none => trivial
  | some room =>
  show Prog.Issues _ (if (!room.isActive) = true then _ else _)
  split
  · trivial
  split
  · trivial
  refine ⟨trivial, fun turn => ?_⟩
  cases turn with
  | error _ => trivial
  | ok turn =>
  show Prog.Issues _ (if (!turn.accepted) = true then _ else _)
  split
  · trivial
  · exact (redis_issues (setRoomData_issues _ _)).bind fun _ => trivial

theorem destroyRoom_issues (q : DestroyRoomRequest) :
    (destroyRoom q).Issues ServerOp.Ordinary := by
  refine ⟨trivial, fun closed => ?_⟩
  cases closed with
  | false => trivial
  | true =>
    refine ⟨trivial, fun _ => ?_⟩
    exact (redis_issues (deleteRoomData_issues _)).bind fun _ => trivial

theorem handle_issues (request : Request) : (handle cfg request).Issues ServerOp.Ordinary := by
  cases request with
  | createRoom q => exact createRoom_issues cfg q
  | sendCommand q => exact sendCommand_issues cfg q
  | destroyRoom q => exact destroyRoom_issues q
  | getHeartbeat =>
    refine ⟨trivial, fun _ => ⟨trivial, fun _ => ?_⟩⟩
    exact (redis_issues (touchNodeHeartbeat_issues _ _)).bind fun _ => trivial

theorem collectMetricsSnapshot_issues (fuel : ℕ) :
    (collectMetricsSnapshot cfg fuel).Issues ServerOp.Ordinary := by
  refine ⟨trivial, fun _ => ⟨trivial, fun _ => ?_⟩⟩
  refine (redis_issues (refreshHeartbeat_issues _ _)).bind fun _ => ?_
  refine ⟨trivial, fun connected => ?_⟩
  cases connected with
  | false => trivial
  | true =>
  refine (redis_issues getAllNodes_issues).bind fun _ => ?_
  refine (redis_issues (getAllRoomSnapshots_issues fuel)).bind fun roomSnapshots => ?_
  cases roomSnapshots <;> trivial

end GameService

namespace Pod

theorem handler_issues {α : Type} {p : GameService.Handler α} (hp : p.Issues ServerOp.Ordinary) :
    (handler p).Issues PodOp.Ordinary :=
  Prog.Issues.expand (f := fun o => .op (PodOp.server o)) (fun _ ho => ⟨ho, fun _ => trivial⟩) hp

theorem redis_issues {α : Type} {p : Client α} (hp : p.Issues RedisOp.NoSetAdd) :
    (redis p).Issues PodOp.Ordinary :=
  Prog.Issues.expand (f := fun o => .op (PodOp.server (.redis o)))
    (fun _ ho => ⟨ho, fun _ => trivial⟩) hp

theorem leave_issues (w : Worker) (r : PodResult) :
    (do let _ ← .op (PodOp.leave w); return r : Routine PodResult).Issues PodOp.Ordinary :=
  ⟨trivial, fun _ => trivial⟩

theorem heartbeatLoop_issues (podIp : String) (turns : ℕ) :
    (heartbeatLoop podIp turns).Issues PodOp.Ordinary := by
  induction turns with
  | zero => trivial
  | succ turns ih =>
    refine ⟨trivial, fun running => ?_⟩
    cases running with
    | false => exact leave_issues _ _
    | true =>
      refine ⟨trivial, fun _ => ?_⟩
      exact (redis_issues (GameService.refreshHeartbeat_issues podIp 300)).bind fun _ => ih

theorem metricsLoop_issues (cfg : ServiceConfig) (turns : List MetricsTurn) :
    (metricsLoop cfg turns).Issues PodOp.Ordinary := by
  induction turns with
  | nil => trivial
  | cons turn turns ih =>
    refine ⟨trivial, fun running => ?_⟩
    cases running with
    | false => exact leave_issues _ _
    | true =>
    refine ⟨trivial, fun _ => ⟨trivial, fun running => ?_⟩⟩
    cases running with
    | false => exact leave_issues _ _
    | true =>
    cases turn with
    | nothing | otherRequest => exact ih
    | scrape fuel =>
      have hcollect := handler_issues (GameService.collectMetricsSnapshot_issues cfg fuel)
      refine hcollect.bind fun snapshot => ?_
      cases snapshot with
      | none => trivial
      | some _ => exact ih

theorem stopWorker_issues (w : Worker) : (stopWorker w).Issues PodOp.Ordinary := by
  refine ⟨trivial, fun _ => ⟨trivial, fun joinable => ?_⟩⟩
  cases joinable with
  | false => trivial
  | true => exact ⟨trivial, fun _ => trivial⟩

theorem stop_issues : stop.Issues PodOp.Ordinary := by
  refine (stopWorker_issues _).bind fun _ => (stopWorker_issues _).bind fun _ => ?_
  refine ⟨trivial, fun hasServer => ?_⟩
  cases hasServer with
  | false => trivial
  | true => exact ⟨trivial, fun _ => ⟨trivial, fun _ => ⟨trivial, fun _ => trivial⟩⟩⟩

theorem waitForRooms_issues (turns : ℕ) : (waitForRooms turns).Issues PodOp.Ordinary := by
  induction turns with
  | zero => trivial
  | succ turns ih => exact ⟨trivial, fun _ => ⟨trivial, fun _ => ih⟩⟩

theorem closeRooms_issues (roomIds : List String) :
    (closeRooms roomIds).Issues PodOp.Ordinary := by
  induction roomIds with
  | nil => trivial
  | cons roomId roomIds ih => exact ⟨trivial, fun _ => ih⟩

theorem gracefulShutdown_issues (podIp : String) :
    (gracefulShutdown podIp).Issues PodOp.Ordinary := by
  have hdrain : drain.Issues PodOp.Ordinary := by
    refine ⟨rfl, fun _ => (waitForRooms_issues 5).bind fun _ => ?_⟩
    exact ⟨trivial, fun roomIds => closeRooms_issues roomIds⟩
  refine hdrain.bind fun _ => ?_
  refine (redis_issues (unregisterNode_issues podIp)).bind fun _ => ?_
  exact stop_issues.bind fun _ => trivial

theorem code_ordinary {cfg : ServiceConfig} {req : PodRequest cfg.podIp}
    (hreq : ∀ command, req ≠ .foreign command) : (code cfg req).Issues PodOp.Ordinary := by
  cases req with
  | rpc request =>
    refine ⟨trivial, fun _ => ?_⟩
    refine (handler_issues (GameService.handle_issues cfg request)).bind fun _ => ?_
    exact ⟨trivial, fun _ => trivial⟩
  | heartbeatThread turns => exact ⟨trivial, fun _ => heartbeatLoop_issues cfg.podIp turns⟩
  | metricsThread listening turns =>
    refine ⟨trivial, fun _ => ?_⟩
    cases listening with
    | false => exact leave_issues _ _
    | true => exact metricsLoop_issues cfg turns
  | gracefulShutdown => exact gracefulShutdown_issues cfg.podIp
  | foreign command => exact absurd rfl (hreq command)

/-- Whatever runs beside a pod, also another client of its Redis, leaves its rooms as
`Ordinary` says. -/
theorem code_served {cfg : ServiceConfig} (req : PodRequest cfg.podIp) :
    (code cfg req).Issues PodOp.Served := by
  by_cases hreq : ∀ command, req ≠ .foreign command
  · exact (code_ordinary hreq).mono fun op h => h.served
  · obtain ⟨command, rfl⟩ := not_forall_not.mp hreq
    exact ⟨trivial, fun _ => trivial⟩

end Pod
end PokemonServer
