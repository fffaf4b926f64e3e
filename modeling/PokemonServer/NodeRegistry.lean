import PokemonServer.ClientEffects
import PokemonServer.Interleaving.Completion

/-!
# The set of registered nodes

RegisterNode adds its pod to `pokemon:server:nodes`. UnregisterNode deletes the
whole set together with the pod's heartbeat key, so the set is right only as long
as the pod that leaves is the last one registered.
-/

namespace PokemonServer
open Interleaving RedisClient

inductive NodeRequest where
  | register (pod : PodIp)
  | unregister (pod : PodIp)
  | foreign (command : ForeignCommand nodesSetKey)

/-- What a call makes of the registered pods. -/
def NodeRequest.apply : NodeRequest → Finset String → Finset String
  | .register pod, pods => insert pod.address pods
  | .unregister pod, pods => pods.erase pod.address
  | .foreign _, pods => pods

def NodeRequest.effects : NodeRequest → ℕ
  | .register _ | .unregister _ => 1
  | .foreign _ => 0

namespace NodeRegistry

def code : NodeRequest → Client Bool
  | .register pod => registerNode pod.address
  | .unregister pod => unregisterNode pod.address
  | .foreign command => do return (← redisCommand command.cmd).isSome

def system (scanPage : ScanPolicy) : System Store NodeRequest RedisOp RedisOp.Res Bool where
  code := code
  exec := (Store.backend scanPage).exec

abbrev NodeEvent := Event RedisOp RedisOp.Res
abbrev Log := List NodeEvent
abbrev NodeThread := Thread NodeRequest RedisOp RedisOp.Res Bool
abbrev NodeConfiguration := Config Store NodeRequest RedisOp RedisOp.Res Bool

def members (s : Store) : Finset String :=
  match s.lookup nodesSetKey with
  | some (.set pods) => pods
  | _ => ∅

abbrev writesNodes : RedisOp → Bool := RedisOp.writes nodesSetKey

/-- The calls that have taken effect, the last one first: a call does so when it writes
the set. -/
def effective (reqs : List NodeRequest) (log : Log) : List NodeRequest :=
  (log.filter fun e => writesNodes e.op).filterMap fun e => reqs[e.tid]?

/-- The pods that have registered and not unregistered since. -/
def registered (c : NodeConfiguration) : Finset String :=
  (effective (c.pool.map Thread.req) c.log).foldr NodeRequest.apply ∅

def Issued : NodeRequest → RedisOp → Prop
  | _, .isConnected => True
  | .register pod, .command cmd => cmd = .sadd nodesSetKey pod.address ∨
    ∃ ex, cmd = .set (heartbeatKey pod.address) "1" ex
  | .unregister pod, .command cmd => cmd = .del [nodesSetKey, heartbeatKey pod.address]
  | .foreign command, .command cmd => cmd = command.cmd

theorem issues_code (req : NodeRequest) : (code req).Issues (Issued req) := by
  cases req with
  | register pod =>
    have hpod := cstr_of_noNul pod.noNul
    have htouch : (touchNodeHeartbeat pod.address 30).Issues (Issued (.register pod)) := by
      refine ⟨trivial, fun connected => ?_⟩
      cases connected with
      | false => trivial
      | true =>
        refine ⟨Or.inr ⟨_, rfl⟩, fun reply => ?_⟩
        cases reply <;> trivial
    refine ⟨trivial, fun connected => ?_⟩
    cases connected with
    | false => trivial
    | true =>
      refine ⟨Or.inl (by rw [cstr_nodesSetKey, hpod]), fun reply => ?_⟩
      cases reply with
      | none => trivial
      | some reply =>
        show Prog.Issues _ (if reply.isNonnegInteger = true then _ else _)
        split
        · exact htouch.bind fun _ => trivial
        · trivial
  | unregister pod =>
    refine ⟨trivial, fun connected => ?_⟩
    cases connected with
    | false => trivial
    | true =>
      refine ⟨by rw [cstr_nodesSetKey]; rfl, fun reply => ?_⟩
      cases reply <;> trivial
  | foreign command => exact ⟨rfl, fun _ => trivial⟩

/-- An UnregisterNode executes its DEL only while no other pod is registered. -/
def lastPodLeaves (c : NodeConfiguration) : Action NodeRequest → Prop
  | .start _ => True
  | .run t => ∀ pod keys, c.AboutTo t (.unregister pod) (.command (.del keys)) →
    registered c ⊆ {pod.address}

def NodesStored (s : Store) (pods : Finset String) : Prop :=
  s.lookup nodesSetKey = none ∧ pods = ∅ ∨ s.lookup nodesSetKey = some (.set pods)

variable {scanPage : ScanPolicy} {s : Store} {pods : Finset String} {c : NodeConfiguration}

theorem NodesStored.members_eq (h : NodesStored s pods) : members s = pods := by
  rcases h with ⟨hnone, hempty⟩ | hsome
  · simp [members, hnone, hempty]
  · simp [members, hsome]

theorem NodesStored.typed (h : NodesStored s pods) : s.NodesTyped := by
  intro value hvalue
  rcases h with ⟨hnone, -⟩ | hsome
  · rw [hnone] at hvalue
    cases hvalue
  · rw [hsome] at hvalue
    cases hvalue

theorem NodesStored.foreign (h : NodesStored s pods) {cmd : Command}
    (hcmd : nodesSetKey ∉ cmd.writes) : NodesStored (Store.exec scanPage cmd s).2 pods := by
  rw [NodesStored, Store.lookup_exec_of_not_writes scanPage hcmd]
  exact h

theorem NodesStored.add (h : NodesStored s pods) (pod : String) :
    NodesStored (Store.exec scanPage (.sadd nodesSetKey pod) s).2 (insert pod pods) := by
  refine Or.inr ?_
  rcases h with ⟨hnone, hempty⟩ | hsome
  · simp [Store.exec, hnone, hempty]
  · simp [Store.exec, hsome]

theorem NodesStored.deleteAll (scanPage : ScanPolicy) {pod : String} (hlast : pods ⊆ {pod})
    (s : Store) (heartbeat : String) :
    NodesStored (Store.exec scanPage (.del [nodesSetKey, heartbeat]) s).2 (pods.erase pod) := by
  refine Or.inl ⟨by simp [Store.exec, Store.lookup_delKeys], ?_⟩
  rw [Finset.erase_eq_empty_iff, ← Finset.subset_singleton_iff]
  exact hlast

theorem writesNodes_heartbeat {podIp : String} (ex : ℤ) :
    writesNodes (.command (.set (heartbeatKey podIp) "1" ex)) = false :=
  decide_eq_false fun h => heartbeatKey_ne_nodesSetKey podIp (List.mem_singleton.mp h).symm

theorem registered_start (hfresh : ∀ e ∈ c.log, e.tid < c.pool.length) (th : NodeThread) :
    registered { c with pool := c.pool ++ [th] } = registered c := by
  have hsame : effective ((c.pool ++ [th]).map Thread.req) c.log =
      effective (c.pool.map Thread.req) c.log := by
    refine List.filterMap_congr fun e he => ?_
    have hlt := hfresh e (List.mem_filter.mp he).1
    rw [List.map_append, List.getElem?_append_left (by rwa [List.length_map])]
  exact congrArg (List.foldr NodeRequest.apply ∅) hsame

theorem registered_run {t : ℕ} {req : NodeRequest} {p : Client Bool}
    (hpool : c.pool[t]? = some ⟨req, p⟩) {pool : List NodeThread}
    (hreqs : pool.map Thread.req = c.pool.map Thread.req) (op : RedisOp) (res : op.Res)
    (s : Store) :
    registered ⟨s, pool, ⟨t, op, res⟩ :: c.log⟩ =
      if writesNodes op then req.apply (registered c) else registered c := by
  have hreq : (c.pool.map Thread.req)[t]? = some req := by
    rw [List.getElem?_map, hpool]
    rfl
  rw [registered, hreqs, effective, List.filter_cons]
  split
  · simp only [List.filterMap_cons, hreq]
    rfl
  · rfl

theorem nodesStored_of_reachable {store : Store} (hstore : nodesSetKey ∉ store)
    (h : (system scanPage).Reachable lastPodLeaves store c) :
    NodesStored c.shared (registered c) := by
  induction h with
  | init => exact Or.inl ⟨AList.lookup_eq_none.mpr hstore, rfl⟩
  | @step c c' a hreach hok hfire ih =>
    cases a with
    | start req =>
      cases hfire
      rw [registered_start (System.path_of_reachable hreach).1]
      exact ih
    | run t =>
      have hreqs := System.requests_of_fire hfire
      obtain ⟨req, op, next, hpool, -, rfl⟩ := System.fire_run hfire
      have hissued : Issued req op := System.issued_of_reachable issues_code hreach ⟨next, hpool⟩
      rw [registered_run hpool (hreqs.trans (List.append_nil _))]
      cases op with
      | isConnected => exact ih
      | command cmd =>
      cases req with
      | register pod =>
        rcases hissued with rfl | ⟨ex, rfl⟩
        · exact ih.add pod.address
        · rw [writesNodes_heartbeat]
          exact ih.foreign (of_decide_eq_false (writesNodes_heartbeat ex))
      | unregister pod =>
        obtain rfl : cmd = _ := hissued
        exact .deleteAll scanPage (hok pod _ ⟨next, hpool⟩) _ _
      | foreign command =>
        obtain rfl : cmd = command.cmd := hissued
        rw [if_neg (by simpa [RedisOp.writes] using command.spares)]
        exact ih.foreign command.spares

theorem answered_of_reachable {store : Store} (hstore : nodesSetKey ∉ store)
    (h : (system scanPage).Reachable lastPodLeaves store c) :
    ∀ e ∈ c.log, Answered e.op e.res := by
  intro e he
  obtain ⟨later, earlier, hlog⟩ := List.append_of_mem he
  obtain ⟨c', -, -, hreach, -, -, -, hres⟩ := System.exists_before h hlog
  rw [hres]
  cases e.op with
  | isConnected => rfl
  | command cmd =>
    exact Store.answered_exec (nodesStored_of_reachable hstore hreach).typed scanPage cmd

theorem code_executes (req : NodeRequest) :
    (code req).Executes Answered writesNodes
      (fun result => req.effects = 1 → result = true) req.effects := by
  cases req with
  | register pod =>
    have hconnected : writesNodes .isConnected = false := rfl
    have hexecutes := registerNode_executes hconnected pod.address
    rw [writesNodes_heartbeat] at hexecutes
    exact hexecutes.mono fun _ h _ => h
  | unregister pod =>
    exact (unregisterNode_executes rfl pod.address).mono fun _ h _ => h
  | foreign command =>
    refine ⟨fun h => ?_, fun reply _ => ⟨?_, fun h => ?_⟩⟩
    · exact absurd (of_decide_eq_true h) command.spares
    · simp [NodeRequest.effects]
    · cases h

/-- The set is what the calls of RegisterNode and UnregisterNode have made of it. Each of
them writes it once before it returns, and returns true. -/
structure Registry (c : NodeConfiguration) : Prop where
  members_eq : members c.shared = registered c
  atMostOnce : ∀ t th, c.pool[t]? = some th → executions t writesNodes c.log ≤ 1
  returned : ∀ t req result, c.pool[t]? = some ⟨req, .ret result⟩ →
    (∀ command, req ≠ .foreign command) → executions t writesNodes c.log = 1 ∧ result = true

/-- In a run in which each pod that leaves is the last one registered, the members
of the set are the registered pods. -/
theorem members_eq_registered (scanPage : ScanPolicy) {store : Store}
    (hstore : nodesSetKey ∉ store)
    (h : (system scanPage).Reachable lastPodLeaves store c) : Registry c where
  members_eq := (nodesStored_of_reachable hstore h).members_eq
  atMostOnce t th hpool := by
    have hle := System.executions_le h (answered_of_reachable hstore h) (code_executes th.req) hpool
    refine hle.trans ?_
    cases th.req with
    | foreign command => exact Nat.zero_le 1
    | _ => exact le_rfl
  returned t req result hpool hforeign := by
    have heffects : req.effects = 1 := by
      cases req with
      | foreign command => exact absurd rfl (hforeign command)
      | _ => rfl
    obtain ⟨honce, hresult⟩ := System.executions_of_returned h (answered_of_reachable hstore h)
      (code_executes req) hpool
    exact ⟨honce.trans heffects, hresult heffects⟩

end NodeRegistry

namespace Sample

def podA : PodIp := ⟨"10.0.0.1", by decide⟩
def podB : PodIp := ⟨"10.0.0.2", by decide⟩

def node (t n : ℕ) (req : NodeRequest) : List (Action NodeRequest) :=
  .start req :: List.replicate n (.run t)

def oneOfTwoLeaves : List (Action NodeRequest) :=
  node 0 4 (.register podA) ++ node 1 4 (.register podB) ++ node 2 2 (.unregister podA)

def podReplaced : List (Action NodeRequest) :=
  node 0 4 (.register podA) ++ node 1 2 (.unregister podA) ++ node 2 4 (.register podB)

end Sample

namespace NodeRegistry
open Sample

theorem members_lost_when_one_of_two_leaves :
    ∃ c, (system scanAll).Reachable (fun _ _ => True) ∅ c ∧ c.Quiescent ∧
      registered c = {"10.0.0.2"} ∧ members c.shared ≠ registered c := by
  obtain ⟨c, hreach, hcheck⟩ := System.exists_reachable_of_schedule (S := system scanAll) (s := ∅)
    oneOfTwoLeaves
    (fun c => c.isQuiescent && decide (registered c = {"10.0.0.2"}) &&
      decide (members c.shared = ∅))
    (by decide +kernel)
  simp only [Bool.and_eq_true, decide_eq_true_eq] at hcheck
  obtain ⟨⟨hquiescent, hregistered⟩, hmembers⟩ := hcheck
  refine ⟨c, hreach, Config.quiescent_of_isQuiescent hquiescent, hregistered, ?_⟩
  rw [hregistered, hmembers]
  decide

def lastPodLeavesTest (c : NodeConfiguration) : Action NodeRequest → Bool
  | .start _ => true
  | .run t =>
    match c.pool[t]? with
    | some ⟨.unregister pod, .call (.command (.del _)) _⟩ =>
      decide (registered c ⊆ {pod.address})
    | _ => true

theorem lastPodLeaves_of_test {c : NodeConfiguration} {a : Action NodeRequest}
    (h : lastPodLeavesTest c a = true) : lastPodLeaves c a := by
  cases a with
  | start req => trivial
  | run t =>
    rintro pod keys ⟨next, hpool⟩
    simpa [lastPodLeavesTest, hpool] using h

theorem members_eq_registered_after_podReplaced :
    ∃ c, (system scanAll).Reachable lastPodLeaves ∅ c ∧ Registry c ∧
      members c.shared = {"10.0.0.2"} := by
  obtain ⟨c, hreach, hcheck⟩ := System.exists_reachable_of_replay (S := system scanAll) (s := ∅)
    lastPodLeavesTest (fun _ _ => lastPodLeaves_of_test) podReplaced
    (fun c => decide (registered c = {"10.0.0.2"})) (by decide +kernel)
  have hregistry := members_eq_registered scanAll (AList.notMem_empty _) hreach
  exact ⟨c, hreach, hregistry, hregistry.members_eq.trans (of_decide_eq_true hcheck)⟩

end NodeRegistry
end PokemonServer
