import PokemonServer.NodeRegistry
import PokemonServer.PodOps

/-!
# What remains of a pod that has shut down

UnregisterNode deletes the pod's heartbeat key while the heartbeat thread, the
metrics thread and the handlers may still touch it; only afterwards are they
stopped. The key stays absent if no touch comes after the deletion.
-/

namespace PokemonServer
open Interleaving RedisClient

def PodOp.command? : PodOp → Option Command
  | .server (.redis (.command cmd)) => some cmd
  | _ => none

def PodOp.Spares (key : String) (op : PodOp) : Prop :=
  ∀ member, op.command? ≠ some (.sadd key member)

theorem PodOp.Ordinary.spares {op : PodOp} (h : op.Ordinary) (key : String) : op.Spares key := by
  intro member heq
  match op, heq with
  | .server (.redis (.command (.sadd _ _))), _ => exact h

namespace Pod
variable {sim : Simulator} {cfg : ServiceConfig} {scanPage : ScanPolicy}

theorem code_issues (req : PodRequest cfg.podIp) :
    (code cfg req).Issues (PodOp.Spares (heartbeatKey cfg.podIp)) := by
  by_cases hreq : ∀ command, req ≠ .foreign command
  · exact (code_ordinary hreq).mono fun op h => h.spares _
  · obtain ⟨command, rfl⟩ := not_forall_not.mp hreq
    refine ⟨?_, fun _ => trivial⟩
    intro member heq
    obtain heq : command.cmd = _ := Option.some.inj heq
    have hwrites : heartbeatKey cfg.podIp ∈ command.cmd.writes := by
      rw [heq]
      exact List.mem_singleton_self _
    exact command.spares hwrites

theorem exec_redis (op : PodOp) (p : Pod sim) :
    (exec scanPage op p).2.server.redis =
      match op.command? with
      | some cmd => (Store.exec scanPage cmd p.server.redis).2
      | none => p.server.redis := by
  cases op with
  | server op =>
    cases op with
    | redis op => cases op <;> rfl
    | _ => rfl
  | _ => rfl

abbrev PodLog := List (Event PodOp PodOp.Res)
abbrev PodConfiguration (sim : Simulator) (podIp : String) :=
  Config (Pod sim) (PodRequest podIp) PodOp PodOp.Res PodResult

def unregisters (podIp : String) (op : PodOp) : Bool :=
  match op.command? with
  | some (.del keys) => decide (heartbeatKey podIp ∈ keys)
  | _ => false

def unregistered (podIp : String) (log : PodLog) : Bool := log.any fun e => unregisters podIp e.op

theorem unregistered_of_cons {podIp : String} {e : Event PodOp PodOp.Res} {log : PodLog}
    (h : unregistered podIp (e :: log) = true) (he : unregisters podIp e.op = false) :
    unregistered podIp log = true := by
  simpa only [unregistered, List.any_cons, he, Bool.false_or] using h

/-- The pod's heartbeat key is set only before the DEL of UnregisterNode. -/
def touchesBeforeUnregister (podIp : String) (c : PodConfiguration sim podIp) :
    Action (PodRequest podIp) → Prop
  | .start _ => True
  | .run t => ∀ req op value ex, c.AboutTo t req op →
    op.command? = some (.set (heartbeatKey podIp) value ex) → unregistered podIp c.log = false

theorem absent_step {p : Pod sim} {log : PodLog} {t : ℕ} {op : PodOp} {podIp : String}
    (h : unregistered podIp log = true → p.server.redis.lookup (heartbeatKey podIp) = none)
    (hspares : op.Spares (heartbeatKey podIp))
    (hguard : ∀ value ex, op.command? = some (.set (heartbeatKey podIp) value ex) →
      unregistered podIp log = false)
    (hlog : unregistered podIp (⟨t, op, (exec scanPage op p).1⟩ :: log) = true) :
    (exec scanPage op p).2.server.redis.lookup (heartbeatKey podIp) = none := by
  rw [exec_redis]
  cases hcmd : op.command? with
  | none => exact h (unregistered_of_cons hlog (by rw [unregisters, hcmd]))
  | some cmd =>
    by_cases hwrites : heartbeatKey podIp ∈ cmd.writes
    · rcases Command.cases_of_writes hwrites with ⟨value, ex, rfl⟩ | ⟨member, rfl⟩ | ⟨keys, rfl, hkeys⟩
      · have hold := unregistered_of_cons hlog (by rw [unregisters, hcmd])
        rw [hguard value ex hcmd] at hold
        cases hold
      · exact absurd hcmd (hspares member)
      · exact (Store.lookup_delKeys keys _ _).trans (if_pos hkeys)
    · have hnot : unregisters podIp op = false := by
        rw [unregisters, hcmd]
        cases cmd with
        | del keys => exact decide_eq_false hwrites
        | _ => rfl
      have hsame := Store.lookup_exec_of_not_writes scanPage hwrites p.server.redis
      exact hsame.trans (h (unregistered_of_cons hlog hnot))

theorem absent_of_reachable {server : ServerState sim Store}
    {c : PodConfiguration sim cfg.podIp}
    (h : (system sim cfg scanPage).Reachable (touchesBeforeUnregister cfg.podIp) (started server) c) :
    unregistered cfg.podIp c.log = true →
      c.shared.server.redis.lookup (heartbeatKey cfg.podIp) = none := by
  induction h with
  | init =>
    intro hlog
    cases hlog
  | @step c c' a hreach hok hfire ih =>
    cases a with
    | start req =>
      cases hfire
      exact ih
    | run t =>
      obtain ⟨req, op, next, hpool, -, rfl⟩ := System.fire_run hfire
      have hop : c.AboutTo t req op := ⟨next, hpool⟩
      exact absent_step ih (System.issued_of_reachable code_issues hreach hop)
        fun value ex => hok req op value ex hop

theorem unregistered_of_returned {ok : PodConfiguration sim cfg.podIp →
      Action (PodRequest cfg.podIp) → Prop} {server : ServerState sim Store}
    {c : PodConfiguration sim cfg.podIp}
    (h : (system sim cfg scanPage).Reachable ok (started server) c) {t : ℕ} {r : PodResult}
    (hpool : c.pool[t]? = some ⟨.gracefulShutdown, .ret r⟩) : unregistered cfg.podIp c.log = true := by
  have hpath := (System.path_of_reachable h).2 t _ hpool
  obtain ⟨_, drained, rest, hhistory, -, hrest⟩ := Path.bind_ret_iff.mp hpath
  obtain ⟨_, unregister, stopped, hrest', hunregister, -⟩ := Path.bind_ret_iff.mp hrest
  obtain ⟨connected, es, hconnected, hdel⟩ := Path.call_ret_iff.mp hunregister
  have hmem : ∀ x ∈ unregister, ⟨t, x.op, x.res⟩ ∈ c.log := by
    intro x hx
    refine mem_history.mp ?_
    rw [hhistory, hrest']
    exact List.mem_append_right _ (List.mem_append_left _ hx)
  obtain rfl : connected = true := by
    obtain ⟨s', hs'⟩ := System.executed_of_reachable h _
      (hmem ⟨.server (.redis .isConnected), connected⟩ (hconnected ▸ List.mem_cons_self))
    exact hs'
  obtain ⟨reply, es', hes, -⟩ := Path.call_ret_iff.mp hdel
  rw [unregistered, List.any_eq_true]
  refine ⟨_, hmem ⟨.server (.redis (.command (.del [cstr nodesSetKey, heartbeatKey cfg.podIp]))),
    reply⟩ ?_, ?_⟩
  · rw [hconnected, hes]
    exact List.mem_cons_of_mem _ List.mem_cons_self
  · simp [unregisters, PodOp.command?]

/-- Once GracefulShutdown has returned, the heartbeat key is absent and no GetAllNodes
lists the pod. -/
def StaysUnregistered (scanPage : ScanPolicy) {podIp : String} (c : PodConfiguration sim podIp) :
    Prop :=
  ∀ (t : ℕ) (r : PodResult), c.pool[t]? = some ⟨.gracefulShutdown, .ret r⟩ →
    nodeHeartbeatPrefix ++ podIp ∉ c.shared.server.redis ∧
      podIp ∉ (getAllNodes.run (Store.backend scanPage).exec c.shared.server.redis).1

theorem staysUnregistered_of_touchesBeforeUnregister (text : JsonText) (serverId : String)
    (pod : PodIp) (scanPage : ScanPolicy) (server : ServerState sim Store)
    {c : PodConfiguration sim pod.address}
    (h : (system sim ⟨text, serverId, pod.address⟩ scanPage).Reachable
      (touchesBeforeUnregister pod.address) (started server) c) : StaysUnregistered scanPage c := by
  intro t r hpool
  have habsent := absent_of_reachable h (unregistered_of_returned h hpool)
  have hnot : nodeHeartbeatPrefix ++ pod.address ∉ c.shared.server.redis := by
    rw [← heartbeatKey_pod]
    exact AList.lookup_eq_none.mp habsent
  exact ⟨hnot, fun hlisted => hnot ((mem_getAllNodes scanPage _ _).mp hlisted).1⟩

def hasShutDown {podIp : String} (c : PodConfiguration sim podIp) (t : ℕ) : Bool :=
  match c.pool[t]? with
  | some ⟨.gracefulShutdown, .ret _⟩ => true
  | _ => false

theorem pool_of_hasShutDown {podIp : String} {c : PodConfiguration sim podIp} {t : ℕ}
    (h : hasShutDown c t = true) : ∃ r, c.pool[t]? = some ⟨.gracefulShutdown, .ret r⟩ := by
  unfold hasShutDown at h
  split at h
  · rename_i r hpool
    exact ⟨r, hpool⟩
  · cases h

def touchesBeforeUnregisterTest (podIp : String) (c : PodConfiguration sim podIp) :
    Action (PodRequest podIp) → Bool
  | .start _ => true
  | .run t =>
    match c.pool[t]? with
    | some ⟨_, .call op _⟩ =>
      match op.command? with
      | some (.set key _ _) => key != heartbeatKey podIp || !unregistered podIp c.log
      | _ => true
    | _ => true

theorem touchesBeforeUnregister_of_test {podIp : String} {c : PodConfiguration sim podIp}
    {a : Action (PodRequest podIp)} (h : touchesBeforeUnregisterTest podIp c a = true) :
    touchesBeforeUnregister podIp c a := by
  cases a with
  | start req => trivial
  | run t =>
    rintro req op value ex ⟨next, hpool⟩ hset
    simpa [touchesBeforeUnregisterTest, hpool, hset] using h

end Pod

namespace Sample

abbrev process : System (Pod simulator) (PodRequest podA.address) PodOp PodOp.Res PodResult :=
  Pod.system simulator ⟨text, "server-0", podA.address⟩ scanAll

def registeredPod : Pod simulator :=
  .started (GameService.initState 10 (AList.singleton (heartbeatKey podA.address) (.string "1")))

def launch (req : PodRequest podA.address) : List (Action (PodRequest podA.address)) := [.start req]
def turns (t n : ℕ) : List (Action (PodRequest podA.address)) := List.replicate n (.run t)

def stopAll : List (Action (PodRequest podA.address)) :=
  turns 1 3 ++ launch (.metricsThread true [.nothing]) ++ turns 2 3 ++ turns 1 5

def wokenAfterUnregister : List (Action (PodRequest podA.address)) :=
  launch (.heartbeatThread 2) ++ turns 0 2 ++ launch .gracefulShutdown ++ turns 1 16 ++
    turns 0 6 ++ stopAll

def stoppedAtLoopTest : List (Action (PodRequest podA.address)) :=
  launch (.heartbeatThread 2) ++ turns 0 6 ++ launch .gracefulShutdown ++ turns 1 16 ++
    turns 0 2 ++ stopAll

end Sample

namespace Pod
open Sample

theorem heartbeat_after_shutdown :
    ∃ c, process.Reachable (fun _ _ => True) registeredPod c ∧ ¬ StaysUnregistered scanAll c := by
  obtain ⟨c, hreach, hcheck⟩ := System.exists_reachable_of_schedule (S := process)
    (s := registeredPod) wokenAfterUnregister
    (fun c => hasShutDown c 1 &&
      decide (nodeHeartbeatPrefix ++ podA.address ∈ c.shared.server.redis.keys)) (by decide +kernel)
  simp only [Bool.and_eq_true, decide_eq_true_eq] at hcheck
  obtain ⟨r, hpool⟩ := pool_of_hasShutDown hcheck.1
  exact ⟨c, hreach, fun hstays => (hstays 1 r hpool).1 (AList.mem_keys.mpr hcheck.2)⟩

theorem staysUnregistered_after_stoppedAtLoopTest :
    ∃ c, process.Reachable (touchesBeforeUnregister podA.address) registeredPod c ∧
      hasShutDown c 1 = true ∧ StaysUnregistered scanAll c := by
  obtain ⟨c, hreach, hcheck⟩ := System.exists_reachable_of_replay (S := process)
    (s := registeredPod) (touchesBeforeUnregisterTest podA.address)
    (fun _ _ => touchesBeforeUnregister_of_test) stoppedAtLoopTest (fun c => hasShutDown c 1)
    (by decide +kernel)
  exact ⟨c, hreach, hcheck,
    staysUnregistered_of_touchesBeforeUnregister text "server-0" podA scanAll _ hreach⟩

end Pod
end PokemonServer
