import PokemonServer.NodeRegistry
import PokemonServer.RedisUrl
import PokemonServer.RoomKeys

/-!
# A server that fails to start

Start parses the URL, connects, removes the rooms that a crashed predecessor left,
registers the pod and starts the gRPC server; it returns at the first of these that
fails, the removal excepted. main then returns, and the destructors stop what is
running and free the connection. None of these steps takes the registration back.
-/

namespace PokemonServer
open Interleaving RedisClient

inductive StartOp where
  | connect (host : String) (port timeoutMs : ℤ)
  | redis (op : RedisOp)
  | buildAndStart (address : String)
  | startMetricsServer
  | startHeartbeatThread
  | stop
  | disconnect

abbrev StartOp.Res : StartOp → Type
  | .connect _ _ _ | .buildAndStart _ | .startMetricsServer => Bool
  | .redis op => op.Res
  | .startHeartbeatThread | .stop | .disconnect => Unit

inductive StartFailure where
  | redisUrl
  | connect
  | registerNode
  | grpcServer
  deriving DecidableEq

namespace Startup

abbrev Launcher := Prog StartOp StartOp.Res

def redis {α : Type} (p : Client α) : Launcher α :=
  p.expand fun o => .op (StartOp.redis o)

/-- Start, from its RegisterNode on. -/
def serve (podIp : String) : Launcher (Except StartFailure Unit) := do
  if !(← redis (registerNode podIp)) then
    return .error .registerNode
  if !(← .op (StartOp.buildAndStart (podIp ++ ":50051"))) then
    return .error .grpcServer
  let _ ← .op StartOp.startMetricsServer
  let _ ← .op StartOp.startHeartbeatThread
  return .ok ()

/-- Without a result when the SCAN loop of the cleanup is cut off. -/
def start (text : JsonText) (podIp redisUrl : String) (fuel : ℕ) :
    Launcher (Option (Except StartFailure Unit)) :=
  match parseRedisUrl redisUrl with
  | none => return some (.error .redisUrl)
  | some (redisHost, redisPort) => do
    if !(← .op (StartOp.connect redisHost redisPort 5000)) then
      return some (.error .connect)
    match ← redis (deleteRoomsForServer text podIp fuel) with
    | none => return none
    | some _ => return some (← serve podIp)

/-- main, with the destructors of GameServer and RedisClient when Start fails. -/
def main (text : JsonText) (podIp redisUrl : String) (fuel : ℕ) :
    Launcher (Option (Except StartFailure Unit)) := do
  match ← start text podIp redisUrl fuel with
  | some (.error failure) =>
    let _ ← .op StartOp.stop
    let _ ← .op StartOp.disconnect
    return some (.error failure)
  | result => return result

/-- What the process finds: whether a connection comes about, what Redis does with a
command, whether gRPC can listen. -/
structure Surroundings (R : Type) where
  connects : String → ℤ → Bool
  command : Command → R → Option Reply × R
  builds : String → Bool

structure Launch (R : Type) where
  connected : Bool
  hasServer : Bool
  metricsThread : Bool
  heartbeatThread : Bool
  redis : R

def Launch.init {R : Type} (redis : R) : Launch R := ⟨false, false, false, false, redis⟩

variable {R : Type}

def link (E : Surroundings R) : RedisBackend (Launch R) where
  isConnected l := l.connected
  command cmd l := ((E.command cmd l.redis).1, { l with redis := (E.command cmd l.redis).2 })

def exec (E : Surroundings R) : (op : StartOp) → Launch R → op.Res × Launch R
  | .connect host port _, l =>
    (E.connects host port, { l with connected := E.connects host port })
  | .redis op, l => (link E).exec op l
  | .buildAndStart address, l => (E.builds address, { l with hasServer := E.builds address })
  | .startMetricsServer, l => (true, { l with metricsThread := true })
  | .startHeartbeatThread, l => ((), { l with heartbeatThread := true })
  | .stop, l =>
    ((), { l with heartbeatThread := false, metricsThread := false, hasServer := false })
  | .disconnect, l => ((), { l with connected := false })

/-- A command is executed or lost, and whatever is replied, only a member of the set is
reported by SADD as added or as there already. -/
structure RedisEffects (E : Surroundings R) (store : R → Store) : Prop where
  effect : ∀ cmd r, store (E.command cmd r).2 = store r ∨
    ∃ scanPage, store (E.command cmd r).2 = (Store.exec scanPage cmd (store r)).2
  added : ∀ key member r reply, (E.command (.sadd key member) r).1 = some reply →
    reply.isNonnegInteger = true →
    ∃ members, (store (E.command (.sadd key member) r).2).lookup key = some (.set members) ∧
      member ∈ members

/-- The pod is neither in the set of nodes nor has a heartbeat key. -/
def Unregistered (podIp : String) (s : Store) : Prop :=
  podIp ∉ NodeRegistry.members s ∧ heartbeatKey podIp ∉ s

@[simp] theorem link_isConnected (E : Surroundings R) (l : Launch R) :
    (link E).exec .isConnected l = (l.connected, l) := rfl

@[simp] theorem link_command (E : Surroundings R) (cmd : Command) (l : Launch R) :
    (link E).exec (.command cmd) l =
      ((E.command cmd l.redis).1, { l with redis := (E.command cmd l.redis).2 }) := rfl

@[simp] theorem exec_connect (E : Surroundings R) (host : String) (port timeoutMs : ℤ)
    (l : Launch R) : exec E (.connect host port timeoutMs) l =
      (E.connects host port, { l with connected := E.connects host port }) := rfl

@[simp] theorem exec_buildAndStart (E : Surroundings R) (address : String) (l : Launch R) :
    exec E (.buildAndStart address) l =
      (E.builds address, { l with hasServer := E.builds address }) := rfl

instance (podIp : String) (s : Store) : Decidable (Unregistered podIp s) :=
  inferInstanceAs (Decidable (_ ∧ _))

theorem run_redis (E : Surroundings R) {α : Type} (p : Client α) (l : Launch R) :
    (redis p).run (exec E) l = p.run (link E).exec l := by
  induction p generalizing l with
  | ret a => rfl
  | call o next ih => exact ih _ _

theorem connected_run (E : Surroundings R) {α : Type} (p : Client α) (l : Launch R) :
    (p.run (link E).exec l).2.connected = l.connected := by
  induction p generalizing l with
  | ret a => rfl
  | call o next ih =>
    rw [Prog.run_call, ih]
    cases o <;> rfl

variable {E : Surroundings R} {store : R → Store}

theorem RedisEffects.lookup (h : RedisEffects E store) {cmd : Command} {key : String}
    (hkey : key ∉ cmd.writes) (r : R) :
    (store (E.command cmd r).2).lookup key = (store r).lookup key := by
  rcases h.effect cmd r with hlost | ⟨scanPage, hexec⟩
  · rw [hlost]
  · rw [hexec, Store.lookup_exec_of_not_writes scanPage hkey]

theorem redisEffects_of_backend (scanPage : ScanPolicy) (connects : String → ℤ → Bool)
    (builds : String → Bool) :
    RedisEffects ⟨connects, (Store.backend scanPage).command, builds⟩ id where
  effect cmd s := Or.inr ⟨scanPage, rfl⟩
  added key member s reply hreply hnonneg := by
    obtain rfl : (Store.exec scanPage (.sadd key member) s).1 = reply := Option.some.inj hreply
    show ∃ members, (Store.exec scanPage (.sadd key member) s).2.lookup key = _ ∧ _
    simp only [Store.exec] at hnonneg ⊢
    split at hnonneg
    · rename_i members hlookup
      exact ⟨insert member members, AList.lookup_insert _, Finset.mem_insert_self _ _⟩
    · cases hnonneg
    · exact ⟨{member}, AList.lookup_insert _, Finset.mem_singleton_self _⟩

theorem touchNodeHeartbeat_keeps_nodes (h : RedisEffects E store) (podIp : String)
    (ttlSeconds : ℤ) (l : Launch R) :
    (store ((touchNodeHeartbeat podIp ttlSeconds).run (link E).exec l).2.redis).lookup nodesSetKey =
      (store l.redis).lookup nodesSetKey := by
  have hne : nodesSetKey ≠ heartbeatKey podIp := by
    intro heq
    have hlists := congrArg String.toList heq
    rw [heartbeatKey, cstr_append (by decide), String.toList_append] at hlists
    simp [nodesSetKey, nodeHeartbeatPrefix] at hlists
  rw [touchNodeHeartbeat, isConnected, Prog.op_bind, Prog.run_call, link_isConnected]
  cases hconnected : l.connected with
  | false => rfl
  | true =>
    simp only [Bool.not_true, Bool.false_eq_true, if_false, redisCommand, Prog.op_bind,
      Prog.run_call, link_command]
    split <;> exact h.lookup (fun hmem => hne (List.mem_singleton.mp hmem)) l.redis

theorem registerNode_run (podIp : String) {l : Launch R} (hconnected : l.connected = true) :
    (registerNode podIp).run (link E).exec l =
      let added := (link E).command (.sadd (cstr nodesSetKey) (cstr podIp)) l
      if added.1.any Reply.isNonnegInteger then
        (true, ((touchNodeHeartbeat podIp 30).run (link E).exec added.2).2)
      else (false, added.2) := by
  have hadd : (link E).exec (.command (.sadd (cstr nodesSetKey) (cstr podIp))) l =
    (link E).command (.sadd (cstr nodesSetKey) (cstr podIp)) l := rfl
  rw [registerNode, isConnected, Prog.op_bind, Prog.run_call, link_isConnected, hconnected]
  simp only [Bool.not_true, Bool.false_eq_true, if_false, redisCommand, Prog.op_bind,
    Prog.run_call, hadd]
  cases ((link E).command (.sadd (cstr nodesSetKey) (cstr podIp)) l).1 with
  | none => rfl
  | some reply =>
    simp only [Option.any_some]
    split
    · rw [Prog.run_bind]
      rfl
    · rfl

theorem mem_members_of_registerNode (h : RedisEffects E store) (pod : PodIp) {l : Launch R}
    (hconnected : l.connected = true)
    (hregister : ((registerNode pod.address).run (link E).exec l).1 = true) :
    pod.address ∈ NodeRegistry.members
      (store ((registerNode pod.address).run (link E).exec l).2.redis) := by
  rw [registerNode_run pod.address hconnected] at hregister ⊢
  rw [cstr_nodesSetKey, cstr_of_noNul pod.noNul] at hregister ⊢
  dsimp only at hregister ⊢
  split at hregister
  · rename_i hreply
    rw [if_pos hreply]
    obtain ⟨reply, hsome, hnonneg⟩ := (Option.any_eq_true _ _).mp hreply
    obtain ⟨members, hlookup, hmem⟩ := h.added _ _ _ reply hsome hnonneg
    have hkept := touchNodeHeartbeat_keeps_nodes h pod.address 30
      ((link E).command (.sadd nodesSetKey pod.address) l).2
    have hset := hkept.trans hlookup
    rw [NodeRegistry.members, hset]
    exact hmem
  · cases hregister

theorem mem_members_of_serve (h : RedisEffects E store) (pod : PodIp) {l l' : Launch R}
    (hconnected : l.connected = true) {failure : StartFailure}
    (hrun : (serve pod.address).run (exec E) l = (.error failure, l'))
    (hfailure : failure ≠ .registerNode) : pod.address ∈ NodeRegistry.members (store l'.redis) := by
  rw [serve, Prog.run_bind, run_redis] at hrun
  cases hregister : ((registerNode pod.address).run (link E).exec l).1 with
  | false =>
    rw [hregister] at hrun
    cases hrun
    exact absurd rfl hfailure
  | true =>
    have hmem := mem_members_of_registerNode h pod hconnected hregister
    rw [hregister] at hrun
    simp only [Bool.not_true, Bool.false_eq_true, if_false, Prog.op_bind, Prog.run_call] at hrun
    cases hbuilds : E.builds (pod.address ++ ":50051") with
    | false =>
      simp only [exec_buildAndStart, hbuilds, Bool.not_false, if_true] at hrun
      cases hrun
      exact hmem
    | true =>
      simp only [exec_buildAndStart, hbuilds, Bool.not_true, Bool.false_eq_true, if_false] at hrun
      cases hrun

theorem start_failed (h : RedisEffects E store) (text : JsonText) (pod : PodIp) (redisUrl : String)
    (fuel : ℕ) {l l' : Launch R} {failure : StartFailure}
    (hrun : (start text pod.address redisUrl fuel).run (exec E) l = (some (.error failure), l'))
    (hfailure : failure ≠ .registerNode) :
    parseRedisUrl redisUrl = none ∧ l'.redis = l.redis ∨
      ∃ host port, parseRedisUrl redisUrl = some (host, port) ∧
        (E.connects host port = false ∧ l'.redis = l.redis ∨
          E.connects host port = true ∧ pod.address ∈ NodeRegistry.members (store l'.redis)) := by
  unfold start at hrun
  cases hparse : parseRedisUrl redisUrl with
  | none =>
    rw [hparse] at hrun
    cases hrun
    exact Or.inl ⟨rfl, rfl⟩
  | some address =>
    obtain ⟨host, port⟩ := address
    refine Or.inr ⟨host, port, rfl, ?_⟩
    rw [hparse] at hrun
    simp only [Prog.op_bind, Prog.run_call, exec_connect] at hrun
    cases hconnects : E.connects host port with
    | false =>
      simp only [hconnects, Bool.not_false, if_true] at hrun
      cases hrun
      exact Or.inl ⟨rfl, rfl⟩
    | true =>
      refine Or.inr ⟨rfl, ?_⟩
      simp only [hconnects, Bool.not_true, Bool.false_eq_true, if_false, Prog.run_bind,
        run_redis] at hrun
      have hconnected := connected_run E (deleteRoomsForServer text pod.address fuel)
        { l with connected := true }
      split at hrun
      · cases hrun
      · rw [Prog.run_bind] at hrun
        obtain ⟨hfailed, hredis⟩ := Prod.mk.inj hrun
        exact mem_members_of_serve h pod hconnected
          (Prod.ext (Option.some.inj hfailed) hredis) hfailure

theorem start_of_main (text : JsonText) (podIp redisUrl : String) (fuel : ℕ) {l l' : Launch R}
    {failure : StartFailure}
    (hrun : (main text podIp redisUrl fuel).run (exec E) l = (some (.error failure), l')) :
    ∃ l₁, (start text podIp redisUrl fuel).run (exec E) l = (some (.error failure), l₁) ∧
      l'.redis = l₁.redis := by
  rw [main, Prog.run_bind] at hrun
  generalize (start text podIp redisUrl fuel).run (exec E) l = result at hrun
  obtain ⟨result, l₁⟩ := result
  match result, hrun with
  | some (.error failure), hrun =>
    cases hrun
    exact ⟨l₁, rfl, rfl⟩

/-- A failed Start leaves the pod unregistered if it fails at the URL or at Connect,
and not if it fails at the gRPC server. -/
theorem unregistered_iff (h : RedisEffects E store) (text : JsonText) (pod : PodIp)
    (redisUrl : String) (fuel : ℕ) {r : R} (hbefore : Unregistered pod.address (store r))
    {l' : Launch R} {failure : StartFailure}
    (hrun : (main text pod.address redisUrl fuel).run (exec E) (Launch.init r) =
      (some (.error failure), l'))
    (hfailure : failure ≠ .registerNode) :
    Unregistered pod.address (store l'.redis) ↔ parseRedisUrl redisUrl = none ∨
      ∃ host port, parseRedisUrl redisUrl = some (host, port) ∧ E.connects host port = false := by
  obtain ⟨l₁, hstart, hredis⟩ := start_of_main text pod.address redisUrl fuel hrun
  rw [hredis]
  rcases start_failed h text pod redisUrl fuel hstart hfailure with
    ⟨hparse, hsame⟩ | ⟨host, port, hparse, ⟨hconnects, hsame⟩ | ⟨hconnects, hmem⟩⟩
  · refine iff_of_true ?_ (Or.inl hparse)
    rw [hsame]
    exact hbefore
  · refine iff_of_true ?_ (Or.inr ⟨host, port, hparse, hconnects⟩)
    rw [hsame]
    exact hbefore
  · refine iff_of_false (fun hleft => hleft.1 hmem) ?_
    rintro (hnone | ⟨host', port', hsome, hrefused⟩)
    · rw [hparse] at hnone
      cases hnone
    · rw [hparse] at hsome
      cases hsome
      rw [hconnects] at hrefused
      cases hrefused

end Startup

namespace Sample
open Startup

def portTaken : Surroundings Store :=
  ⟨fun _ _ => true, (Store.backend scanAll).command, fun _ => false⟩

def redisDown : Surroundings Store :=
  ⟨fun _ _ => false, (Store.backend scanAll).command, fun _ => true⟩

end Sample

namespace Startup
open Sample

theorem unregistered_when_redisDown :
    Unregistered podA.address ((main text podA.address "redis:6379" 1).run (exec redisDown)
      (Launch.init ∅)).2.redis := by
  have hrun : (main text podA.address "redis:6379" 1).run (exec redisDown) (Launch.init ∅) =
      (some (.error .connect), _) := Prod.ext rfl rfl
  have hbefore : Unregistered podA.address ∅ := by decide +kernel
  have hparse : parseRedisUrl "redis:6379" = some ("redis", 6379) := by decide +kernel
  exact (unregistered_iff (redisEffects_of_backend scanAll _ _) text podA "redis:6379" 1 hbefore
    hrun (by decide)).mpr (Or.inr ⟨"redis", 6379, hparse, rfl⟩)

theorem registered_after_failed_start :
    let r := (main text podA.address "redis:6379" 1).run (exec portTaken) (Launch.init ∅)
    r.1 = some (.error .grpcServer) ∧ Unregistered podA.address ∅ ∧
      ¬ Unregistered podA.address r.2.redis := by
  refine ⟨rfl, ?_, ?_⟩
  · decide +kernel
  · decide +kernel

end Startup
end PokemonServer
