import PokemonServer.ClientEffects
import PokemonServer.ClientReplies
import PokemonServer.Leases
import PokemonServer.Metrics
import PokemonServer.NodeRegistry
import PokemonServer.RoomKeys

/-!
# Keys that expire

A Redis with a clock, in seconds: SET with EX gives a key a deadline, DEL and the next
SET take it away, SADD leaves it alone, and a key is gone when its deadline comes. Calls
of RedisClient and the passage of time interleave in any way. What a key holds is then
the value of its last SET, if that is less than its time to live ago and no DEL has come
since: the pods that GetAllNodes lists are those that have touched their heartbeat in the
last five minutes, and the snapshot of a room is there for an hour.
-/

namespace PokemonServer
open Interleaving RedisClient Leases

structure ExpiringStore where
  store : Store
  deadline : String → Option ℕ
  clock : ℕ

namespace ExpiringStore

def init : ExpiringStore := ⟨∅, fun _ => none, 0⟩

def due (s : ExpiringStore) (now : ℕ) (key : String) : Bool :=
  (s.deadline key).any fun deadline => decide (deadline ≤ now)

/-- The clock goes on, and every key that is due is deleted. -/
def pass (seconds : ℕ) (s : ExpiringStore) : ExpiringStore :=
  let due := s.due (s.clock + seconds)
  { store := (Store.delKeys (s.store.keys.filter due) s.store).2
    deadline key := if due key then none else s.deadline key
    clock := s.clock + seconds }

def invalidExpire : Reply := .error "ERR invalid expire time in 'set' command"

def command (scanPage : ScanPolicy) (cmd : Command) (s : ExpiringStore) : Reply × ExpiringStore :=
  match cmd with
  | .set key _ ex =>
    if 0 < ex then
      ((Store.exec scanPage cmd s.store).1,
        { s with
          store := (Store.exec scanPage cmd s.store).2
          deadline := Function.update s.deadline key (some (s.clock + ex.toNat)) })
    else (invalidExpire, s)
  | .del keys =>
    ((Store.exec scanPage cmd s.store).1,
      { s with
        store := (Store.exec scanPage cmd s.store).2
        deadline := fun key => if key ∈ keys then none else s.deadline key })
  | _ =>
    ((Store.exec scanPage cmd s.store).1, { s with store := (Store.exec scanPage cmd s.store).2 })

end ExpiringStore

inductive TimedOp where
  | client (op : RedisOp)
  | pass (seconds : ℕ)

abbrev TimedOp.Res : TimedOp → Type
  | .client op => op.Res
  | .pass _ => Unit

inductive TimedRequest where
  | call (call : ClientCall)
  | pass (seconds : ℕ)

namespace ExpiringStore

def exec (scanPage : ScanPolicy) : (op : TimedOp) → ExpiringStore → op.Res × ExpiringStore
  | .client .isConnected, s => (true, s)
  | .client (.command cmd), s => let r := command scanPage cmd s; (some r.1, r.2)
  | .pass seconds, s => ((), s.pass seconds)

def code (text : JsonText) : TimedRequest → Prog TimedOp TimedOp.Res Returned
  | .call call => (call.client text).expand fun o => .op (TimedOp.client o)
  | .pass seconds => do
    let _ ← .op (TimedOp.pass seconds)
    return .served

def system (text : JsonText) (scanPage : ScanPolicy) :
    System ExpiringStore TimedRequest TimedOp TimedOp.Res Returned where
  code := code text
  exec := exec scanPage

abbrev TimedEvent := Event TimedOp TimedOp.Res
abbrev TimedLog := List TimedEvent
abbrev TimedConfiguration := Config ExpiringStore TimedRequest TimedOp TimedOp.Res Returned

/-! The history of one key. -/
section history

def elapsed : TimedLog → ℕ
  | [] => 0
  | ⟨_, .pass seconds, _⟩ :: es => elapsed es + seconds
  | _ :: es => elapsed es

def opEvent (key : String) : TimedOp → LeaseEvent String
  | .pass seconds => .pass seconds
  | .client (.command (.set k value ex)) =>
    if h : k = key ∧ 0 < ex then .grant value ⟨ex.toNat, Int.pos_iff_toNat_pos.mp h.2⟩ else .other
  | .client (.command (.del keys)) => if key ∈ keys then .revoke else .other
  | _ => .other

def leaseHistory (key : String) (log : TimedLog) : List (LeaseEvent String) :=
  log.map fun e => opEvent key e.op

def Leased (s : ExpiringStore) (log : TimedLog) (key : String) : Prop :=
  s.store.lookup key = (holds (leaseHistory key log)).map (fun x => .string x.1) ∧
    s.deadline key = (holds (leaseHistory key log)).map fun x => s.clock + x.2

variable {s : ExpiringStore} {log : TimedLog} {key : String}

theorem leased_init (key : String) : Leased init [] key := ⟨rfl, rfl⟩

theorem Leased.keep (h : Leased s log key) {s' : ExpiringStore} {e : TimedEvent}
    (he : opEvent key e.op = .other) (hstore : s'.store.lookup key = s.store.lookup key)
    (hdeadline : s'.deadline key = s.deadline key) (hclock : s'.clock = s.clock) :
    Leased s' (e :: log) key := by
  have hholds : holds (leaseHistory key (e :: log)) = holds (leaseHistory key log) := by
    rw [leaseHistory, List.map_cons, he]
    rfl
  rw [Leased, hholds, hstore, hdeadline, hclock]
  exact h

theorem Leased.pass (h : Leased s log key) (seconds : ℕ) (t : ℕ) :
    Leased (s.pass seconds) (⟨t, .pass seconds, ()⟩ :: log) key := by
  obtain ⟨hstore, hdeadline⟩ := h
  have hholds : holds (leaseHistory key (⟨t, .pass seconds, ()⟩ :: log)) =
      (holds (leaseHistory key log)).bind fun x =>
        if seconds < x.2 then some (x.1, x.2 - seconds) else none := rfl
  rw [Leased, hholds]
  simp only [ExpiringStore.pass, Store.lookup_delKeys, List.mem_filter, due]
  cases hhistory : holds (leaseHistory key log) with
  | none =>
    rw [hhistory] at hstore hdeadline
    simp only [Option.map_none] at hstore hdeadline
    simp [hstore, hdeadline]
  | some x =>
    obtain ⟨value, left⟩ := x
    rw [hhistory] at hstore hdeadline
    simp only [Option.map_some] at hstore hdeadline
    have hmem := AList.mem_keys.mp (Store.mem_of_lookup hstore)
    by_cases hlt : seconds < left
    · have hnot : ¬ s.clock + left ≤ s.clock + seconds := by omega
      have hleft : s.clock + left = s.clock + seconds + (left - seconds) := by omega
      simp only [hdeadline, Option.any_some, decide_eq_true_eq, hnot, and_false, if_false, hstore,
        Option.bind_some, if_pos hlt, Option.map_some, true_and]
      exact congrArg some hleft
    · have hdue : s.clock + left ≤ s.clock + seconds := by omega
      simp [hdeadline, hdue, hmem, if_neg hlt]

theorem Leased.set (h : Leased s log key) (scanPage : ScanPolicy) (k value : String) (ex : ℤ)
    (t : ℕ) (reply : Option Reply) :
    Leased (command scanPage (.set k value ex) s).2
      (⟨t, .client (.command (.set k value ex)), reply⟩ :: log) key := by
  by_cases hex : 0 < ex
  · by_cases hk : k = key
    · subst hk
      have hevent : opEvent k (.client (.command (.set k value ex))) =
          .grant value ⟨ex.toNat, Int.pos_iff_toNat_pos.mp hex⟩ := dif_pos ⟨rfl, hex⟩
      simp only [Leased, leaseHistory, List.map_cons, hevent, holds, command, if_pos hex,
        Function.update_self, Store.exec, AList.lookup_insert, Option.map_some, true_and]
      rfl
    · refine h.keep (dif_neg fun heq => hk heq.1) ?_ ?_ ?_
      · simp only [command, if_pos hex]
        exact AList.lookup_insert_ne (Ne.symm hk)
      · simp only [command, if_pos hex]
        exact Function.update_of_ne (Ne.symm hk) _ _
      · simp only [command, if_pos hex]
  · have hsame : (command scanPage (.set k value ex) s).2 = s := by
      simp only [command, if_neg hex]
    rw [hsame]
    exact h.keep (dif_neg fun heq => hex heq.2) rfl rfl rfl

theorem Leased.del (h : Leased s log key) (scanPage : ScanPolicy) (keys : List String)
    (t : ℕ) (reply : Option Reply) :
    Leased (command scanPage (.del keys) s).2
      (⟨t, .client (.command (.del keys)), reply⟩ :: log) key := by
  have hlookup := Store.lookup_delKeys keys s.store key
  by_cases hk : key ∈ keys
  · have hevent : opEvent key (.client (.command (.del keys))) = .revoke := if_pos hk
    rw [if_pos hk] at hlookup
    simp only [Leased, leaseHistory, List.map_cons, hevent, holds, command, Store.exec, hlookup,
      if_pos hk]
    exact ⟨rfl, rfl⟩
  · rw [if_neg hk] at hlookup
    exact h.keep (if_neg hk) hlookup (if_neg hk) rfl

theorem Leased.exec (h : Leased s log key) (scanPage : ScanPolicy) {op : TimedOp}
    (hop : ∀ member, op ≠ .client (.command (.sadd key member))) (t : ℕ) :
    Leased (exec scanPage op s).2 (⟨t, op, (exec scanPage op s).1⟩ :: log) key := by
  cases op with
  | pass seconds => exact h.pass seconds t
  | client op =>
  cases op with
  | isConnected => exact h.keep rfl rfl rfl rfl
  | command cmd =>
  cases cmd with
  | set k value ex => exact h.set scanPage k value ex t _
  | del keys => exact h.del scanPage keys t _
  | sadd k member =>
    refine h.keep rfl (Store.lookup_exec_of_not_writes scanPage ?_ s.store) rfl rfl
    intro hk
    obtain rfl := List.mem_singleton.mp hk
    exact hop member rfl
  | get _ | keys _ | scan _ _ _ =>
    refine h.keep rfl (Store.lookup_exec_of_not_writes scanPage ?_ s.store) rfl rfl
    intro hk
    cases hk

end history

end ExpiringStore

/-! Which calls have written a key. -/

def TimedOp.writes (key : String) : TimedOp → Bool
  | .client op => op.writes key
  | .pass _ => false

namespace ExpiringStore

def Issued : TimedRequest → TimedOp → Prop
  | .call call, .client op => call.Issued op
  | .call _, .pass _ => False
  | .pass _, op => ∃ seconds, op = .pass seconds

def TimedAnswered : (op : TimedOp) → op.Res → Prop
  | .client op, res => Answered op res
  | .pass _, _ => True

theorem code_given (text : JsonText) (req : TimedRequest) :
    (code text req).IssuesGiven TimedAnswered (Issued req) := by
  cases req with
  | call call =>
    exact Prog.IssuesGiven.expand (f := fun o => .op (TimedOp.client o))
      (fun _ ho q hq => ⟨ho, fun r hr => hq r hr⟩) (ClientCall.client_given text call)
  | pass seconds => exact ⟨⟨seconds, rfl⟩, fun _ _ => trivial⟩

theorem answered_command {s : ExpiringStore} (h : s.store.NodesTyped) (scanPage : ScanPolicy)
    (cmd : Command) : Answered (.command cmd) (some (command scanPage cmd s).1) := by
  cases cmd with
  | set key value ex =>
    intro hex
    simp only [command, if_pos hex]
    rfl
  | del keys => exact s.store.answered_exec h scanPage (.del keys)
  | sadd key member => exact s.store.answered_exec h scanPage (.sadd key member)
  | scan cursor pattern count => exact s.store.answered_exec h scanPage (.scan cursor pattern count)
  | get _ | keys _ => trivial

theorem typed_command {s : ExpiringStore} (h : s.store.NodesTyped) (scanPage : ScanPolicy)
    {cmd : Command} (hcmd : ∀ value ex, cmd ≠ .set nodesSetKey value ex) :
    (command scanPage cmd s).2.store.NodesTyped := by
  have hstore := h.exec scanPage hcmd
  cases cmd with
  | set key value ex =>
    simp only [command]
    split
    · exact hstore
    · exact h
  | _ => exact hstore

theorem typed_pass {s : ExpiringStore} (h : s.store.NodesTyped) (seconds : ℕ) :
    (s.pass seconds).store.NodesTyped := by
  intro value hvalue
  simp only [pass, Store.lookup_delKeys] at hvalue
  split at hvalue
  · cases hvalue
  · exact h value hvalue

variable {text : JsonText} {scanPage : ScanPolicy} {c : TimedConfiguration}
  {ok : TimedConfiguration → Action TimedRequest → Prop} {key : String}

theorem set_ne_nodesSetKey {call : ClientCall} {cmd : Command} (h : call.Issued (.command cmd))
    (value : String) (ex : ℤ) : cmd ≠ .set nodesSetKey value ex := by
  rintro rfl
  have hsets : call.Sets nodesSetKey value ex := h
  generalize hkey : nodesSetKey = key at hsets
  cases hsets with
  | touch podIp _ | register podIp => exact heartbeatKey_ne_nodesSetKey podIp hkey.symm
  | room roomId _ => exact roomKey_ne_nodesSetKey roomId hkey.symm

theorem answered_of_reachable (h : (system text scanPage).Reachable ok init c) :
    c.shared.store.NodesTyped ∧ ∀ e ∈ c.log, TimedAnswered e.op e.res := by
  induction h with
  | init =>
    refine ⟨fun value hvalue => ?_, nofun⟩
    simp [Config.init, init] at hvalue
  | @step c c' a hreach _ hfire ih =>
    obtain ⟨htyped, hlog⟩ := ih
    cases a with
    | start req =>
      cases hfire
      exact ⟨htyped, hlog⟩
    | run t =>
      obtain ⟨req, op, next, hpool, -, rfl⟩ := System.fire_run hfire
      have hissued := (System.issuedGiven_of_log hlog (code_given text) hreach).2 t req op
        ⟨next, hpool⟩
      cases op with
      | pass seconds =>
        exact ⟨typed_pass htyped seconds, List.forall_mem_cons.mpr ⟨trivial, hlog⟩⟩
      | client op =>
      cases op with
      | isConnected => exact ⟨htyped, List.forall_mem_cons.mpr ⟨rfl, hlog⟩⟩
      | command cmd =>
        cases req with
        | pass seconds => cases hissued.choose_spec
        | call call =>
          exact ⟨typed_command htyped scanPage (set_ne_nodesSetKey hissued),
            List.forall_mem_cons.mpr ⟨answered_command htyped scanPage cmd, hlog⟩⟩

theorem issued_of_reachable (h : (system text scanPage).Reachable ok init c) :
    (∀ e ∈ c.log, ∃ th, c.pool[e.tid]? = some th ∧ Issued th.req e.op) ∧
      ∀ t req op, c.AboutTo t req op → Issued req op :=
  System.issuedGiven_of_log (answered_of_reachable h).2 (code_given text) h

/-- What the calls write, and how often. -/
structure CallsTakeEffect (c : TimedConfiguration) : Prop where
  writer : ∀ e ∈ c.log, ∀ key, key ≠ nodesSetKey → e.op.writes key = true →
    ∃ call, (c.pool.map Thread.req)[e.tid]? = some (.call call) ∧ call.Writes key
  atMostOnce : ∀ t call p key, c.pool[t]? = some ⟨.call call, p⟩ → call.key = some key →
    executions t (TimedOp.writes key) c.log ≤ 1
  returned : ∀ t call result key, c.pool[t]? = some ⟨.call call, .ret result⟩ →
    call.key = some key → executions t (TimedOp.writes key) c.log = 1 ∧ result = .bool true

theorem code_executes (text : JsonText) {call : ClientCall} (hkey : call.key = some key) :
    (code text (.call call)).Executes TimedAnswered (TimedOp.writes key) (· = .bool true) 1 := by
  refine Prog.Executes.expand (fun o => ?_) (ClientCall.client_executes text hkey)
  refine ⟨fun ho => ?_, fun r hr => ⟨?_, hr⟩⟩
  · have hwrites : o.writes key = true := ho
    rw [if_pos hwrites]
    exact Nat.one_pos
  · show (if o.writes key = true then (if o.writes key = true then 1 else 0) - 1
      else if o.writes key = true then 1 else 0) = 0
    split <;> rfl

theorem callsTakeEffect (h : (system text scanPage).Reachable ok init c) : CallsTakeEffect c where
  writer e he key hkey hwrites := by
    obtain ⟨⟨req, p⟩, hth, hissued⟩ := (issued_of_reachable h).1 e he
    cases hop : e.op with
    | pass seconds =>
      rw [hop] at hwrites
      cases hwrites
    | client op =>
      rw [hop] at hwrites hissued
      cases req with
      | pass seconds => cases hissued.choose_spec
      | call call =>
        refine ⟨call, ?_, ClientCall.writes_of_issued hissued hwrites hkey⟩
        rw [List.getElem?_map, hth]
        rfl
  atMostOnce _ _ _ _ hpool hkey :=
    System.executions_le h (answered_of_reachable h).2 (code_executes text hkey) hpool
  returned _ _ _ _ hpool hkey :=
    System.executions_of_returned (Q := (· = .bool true)) h (answered_of_reachable h).2
      (code_executes text hkey) hpool

theorem leased_of_reachable (hkey : key ≠ nodesSetKey)
    (h : (system text scanPage).Reachable ok init c) : Leased c.shared c.log key := by
  induction h with
  | init => exact leased_init key
  | @step c c' a hreach _ hfire ih =>
    cases a with
    | start req =>
      cases hfire
      exact ih
    | run t =>
      obtain ⟨req, op, next, hpool, -, rfl⟩ := System.fire_run hfire
      refine ih.exec scanPage (fun member hop => hkey ?_) t
      have hissued := (issued_of_reachable hreach).2 t req op ⟨next, hpool⟩
      subst hop
      cases req with
      | call call => exact hissued
      | pass seconds => cases hissued.choose_spec

/-- The last SET of the key is less than its time to live ago, and no DEL of it has come
since. -/
def HeldBy (log : TimedLog) (key value : String) : Prop :=
  ∃ later t ex reply earlier,
    log = later ++ ⟨t, .client (.command (.set key value ex)), reply⟩ :: earlier ∧
      (∀ e ∈ later, (opEvent key e.op).Keeps) ∧ (elapsed later : ℤ) < ex

theorem opEvent_eq_grant {op : TimedOp} {value : String} {duration : ℕ+}
    (h : opEvent key op = .grant value duration) :
    ∃ ex : ℤ, op = .client (.command (.set key value ex)) ∧ ((duration : ℕ) : ℤ) = ex := by
  cases op with
  | pass seconds => cases h
  | client op =>
  cases op with
  | isConnected => cases h
  | command cmd =>
  cases cmd with
  | set k v ex =>
    simp only [opEvent] at h
    split at h
    · rename_i hk
      obtain ⟨rfl, hex⟩ := hk
      cases h
      exact ⟨ex, rfl, Int.toNat_of_nonneg hex.le⟩
    · cases h
  | del keys =>
    simp only [opEvent] at h
    split at h <;> cases h
  | _ => cases h

theorem passed_leaseHistory (key : String) (log : TimedLog) :
    passed (leaseHistory key log) = elapsed log := by
  induction log with
  | nil => rfl
  | cons e log ih =>
    have hcons : leaseHistory key (e :: log) = opEvent key e.op :: leaseHistory key log := rfl
    obtain ⟨t, op, res⟩ := e
    rw [hcons]
    cases op with
    | pass seconds => exact congrArg (· + seconds) ih
    | client op =>
    cases op with
    | isConnected => exact ih
    | command cmd =>
    cases cmd with
    | set k v ex =>
      simp only [opEvent]
      split <;> exact ih
    | del keys =>
      simp only [opEvent]
      split <;> exact ih
    | _ => exact ih

theorem heldBy_iff {log : TimedLog} {value : String} :
    HeldBy log key value ↔ ∃ left, holds (leaseHistory key log) = some (value, left) := by
  rw [holds_iff]
  constructor
  · rintro ⟨later, t, ex, reply, earlier, rfl, hlater, hlt⟩
    have hex : 0 < ex := by omega
    refine ⟨leaseHistory key later, ⟨ex.toNat, Int.pos_iff_toNat_pos.mp hex⟩,
      leaseHistory key earlier, ?_, fun e he => ?_, ?_⟩
    · simp [leaseHistory, opEvent, hex]
    · obtain ⟨e', he', rfl⟩ := List.mem_map.mp he
      exact hlater e' he'
    · rw [passed_leaseHistory]
      exact (Int.lt_toNat (n := ex)).mpr hlt
  · rintro ⟨later', duration, earlier', hsplit, hlater, hlt⟩
    obtain ⟨later, rest, rfl, rfl, hrest⟩ := List.map_eq_append_iff.mp hsplit
    obtain ⟨⟨t, op, res⟩, earlier, rfl, hgrant, rfl⟩ := List.map_eq_cons_iff.mp hrest
    obtain ⟨ex, rfl, hex⟩ := opEvent_eq_grant hgrant
    refine ⟨later, t, ex, res, earlier, rfl, fun e he => hlater _ (List.mem_map_of_mem he), ?_⟩
    have hpassed := passed_leaseHistory key later
    rw [leaseHistory] at hpassed
    rw [hpassed] at hlt
    omega

/-- In every run, a key holds a value exactly as long as its last SET says. -/
theorem lookup_iff_heldBy (hkey : key ≠ nodesSetKey)
    (h : (system text scanPage).Reachable ok init c) (value : String) :
    c.shared.store.lookup key = some (.string value) ↔ HeldBy c.log key value := by
  rw [heldBy_iff, (leased_of_reachable hkey h).1]
  cases holds (leaseHistory key c.log) with
  | none => simp
  | some x =>
    obtain ⟨value', left⟩ := x
    simp

/-- The last call that has written the key did so `age` seconds ago. -/
def LastWrite (reqs : List TimedRequest) (log : TimedLog) (key : String) (call : ClientCall)
    (age : ℕ) : Prop :=
  ∃ (later : TimedLog) (e : TimedEvent) (earlier : TimedLog), log = later ++ e :: earlier ∧
    reqs[e.tid]? = some (.call call) ∧ e.op.writes key = true ∧
    (∀ e' ∈ later, e'.op.writes key = false) ∧ elapsed later = age

theorem keeps_iff {req : TimedRequest} {op : TimedOp} (hissued : Issued req op)
    (hkey : key ≠ nodesSetKey) : (opEvent key op).Keeps ↔ op.writes key = false := by
  cases op with
  | pass seconds => exact iff_of_true trivial rfl
  | client op =>
  cases req with
  | pass seconds => cases hissued.choose_spec
  | call call =>
  cases op with
  | isConnected => exact iff_of_true trivial rfl
  | command cmd =>
  cases cmd with
  | set k value ex =>
    have hpos : 0 < ex := by
      have hsets : call.Sets k value ex := hissued
      cases hsets with
      | touch podIp ttlSeconds => split <;> omega
      | register _ | room _ _ => decide
    by_cases hk : k = key
    · subst hk
      simp [opEvent, hpos, LeaseEvent.Keeps, TimedOp.writes, RedisOp.writes, Command.writes]
    · simp [opEvent, hk, LeaseEvent.Keeps, TimedOp.writes, RedisOp.writes, Command.writes,
        Ne.symm hk]
  | del keys =>
    by_cases hk : key ∈ keys <;>
      simp [opEvent, hk, LeaseEvent.Keeps, TimedOp.writes, RedisOp.writes, Command.writes]
  | sadd k member =>
    obtain rfl : k = nodesSetKey := hissued
    simp [opEvent, LeaseEvent.Keeps, TimedOp.writes, RedisOp.writes, Command.writes, hkey]
  | get _ | keys _ | scan _ _ _ => exact iff_of_true trivial rfl

theorem heldBy_iff_lastWrite {reqs : List TimedRequest} {log : TimedLog} {value : String}
    (hkey : key ≠ nodesSetKey)
    (hissued : ∀ e ∈ log, ∃ req, reqs[e.tid]? = some req ∧ Issued req e.op) :
    HeldBy log key value ↔
      ∃ call age ex, LastWrite reqs log key call age ∧ call.Sets key value ex ∧ (age : ℤ) < ex := by
  have hkept : ∀ later : TimedLog, (∀ e ∈ later, e ∈ log) →
      ((∀ e ∈ later, (opEvent key e.op).Keeps) ↔ ∀ e ∈ later, e.op.writes key = false) := by
    intro later hlater
    refine forall₂_congr fun e he => ?_
    obtain ⟨req, -, hop⟩ := hissued e (hlater e he)
    exact keeps_iff hop hkey
  constructor
  · rintro ⟨later, t, ex, reply, earlier, rfl, hkeeps, hlt⟩
    have hnot := (hkept later fun e he => List.mem_append_left _ he).mp hkeeps
    obtain ⟨req, hreq, hop⟩ := hissued _ (List.mem_append_right _ List.mem_cons_self)
    cases req with
    | pass seconds => cases hop.choose_spec
    | call call =>
      refine ⟨call, elapsed later, ex, ⟨later, _, earlier, rfl, hreq, ?_, hnot, rfl⟩, hop, hlt⟩
      exact decide_eq_true List.mem_cons_self
  · rintro ⟨call, _, ex, ⟨later, ⟨t, op, res⟩, earlier, rfl, hreq, hwrites, hnot, rfl⟩, hsets, hlt⟩
    have hkeeps := (hkept later fun e he => List.mem_append_left _ he).mpr hnot
    obtain ⟨req, hreq', hop⟩ := hissued _ (List.mem_append_right _ List.mem_cons_self)
    rw [hreq] at hreq'
    cases hreq'
    cases op with
    | pass seconds => cases hop
    | client op =>
      obtain rfl := hsets.op_eq hop hwrites hkey
      exact ⟨later, t, ex, res, earlier, rfl, hkeeps, hlt⟩

theorem issued_request (h : (system text scanPage).Reachable ok init c) :
    ∀ e ∈ c.log, ∃ req, (c.pool.map Thread.req)[e.tid]? = some req ∧ Issued req e.op := by
  intro e he
  obtain ⟨th, hth, hop⟩ := (issued_of_reachable h).1 e he
  refine ⟨th.req, ?_, hop⟩
  rw [List.getElem?_map, hth]
  rfl

/-! The pods that GetAllNodes lists. -/
section nodes

/-- For how long the call lets a pod's heartbeat live, if it touches one. -/
def touchSeconds : ClientCall → Option ℤ
  | .touchNodeHeartbeat _ ttlSeconds => some (if ttlSeconds < 300 then 300 else ttlSeconds)
  | .registerNode _ => some 300
  | _ => none

/-- The last call about the pod's heartbeat is a touch, and its time is not up. -/
def Alive (reqs : List TimedRequest) (log : TimedLog) (podIp : String) : Prop :=
  ∃ call age seconds, LastWrite reqs log (nodeHeartbeatPrefix ++ podIp) call age ∧
    touchSeconds call = some seconds ∧ (age : ℤ) < seconds

theorem prefix_ne_nodesSetKey (podIp : String) : nodeHeartbeatPrefix ++ podIp ≠ nodesSetKey := by
  simp [nodesSetKey, nodeHeartbeatPrefix, String.ext_iff]

theorem prefix_ne_roomKey (podIp roomId : String) :
    nodeHeartbeatPrefix ++ podIp ≠ roomKey roomId := by
  simp [roomKey, nodeHeartbeatPrefix, String.ext_iff]

theorem touchSeconds_iff {call : ClientCall} {podIp : String} {seconds : ℤ}
    (hwrites : call.Writes (nodeHeartbeatPrefix ++ podIp)) :
    touchSeconds call = some seconds ↔
      ∃ value, call.Sets (nodeHeartbeatPrefix ++ podIp) value seconds := by
  generalize hkey : nodeHeartbeatPrefix ++ podIp = key at hwrites
  rcases hwrites with ⟨value, ex, hsets⟩ | ⟨keys, hdeletes, -⟩
  · cases hsets with
    | touch podIp' ttlSeconds =>
      constructor
      · intro h
        cases h
        exact ⟨_, .touch podIp' ttlSeconds⟩
      · rintro ⟨value, hsets⟩
        cases hsets
        rfl
    | register podIp' =>
      constructor
      · intro h
        cases h
        exact ⟨_, .register podIp'⟩
      · rintro ⟨value, hsets⟩
        cases hsets
        rfl
    | room roomId data => exact absurd hkey (prefix_ne_roomKey podIp roomId)
  · refine iff_of_false (fun h => ?_) ?_
    · cases hdeletes <;> cases h
    · rintro ⟨value, hsets⟩
      cases hsets <;> cases hdeletes

theorem mem_store_iff_heldBy (hkey : key ≠ nodesSetKey)
    (h : (system text scanPage).Reachable ok init c) :
    key ∈ c.shared.store ↔ ∃ value, HeldBy c.log key value := by
  constructor
  · intro hmem
    obtain ⟨v, hv⟩ := Option.isSome_iff_exists.mp (AList.lookup_isSome.mpr hmem)
    have hstore := (leased_of_reachable hkey h).1
    rw [hv] at hstore
    obtain ⟨x, hx, -⟩ := Option.map_eq_some_iff.mp hstore.symm
    exact ⟨x.1, heldBy_iff.mpr ⟨x.2, hx⟩⟩
  · rintro ⟨value, hheld⟩
    exact Store.mem_of_lookup ((lookup_iff_heldBy hkey h value).mpr hheld)

theorem keys_of_returned (h : (system text scanPage).Reachable ok init c) {t : ℕ}
    {podIps : List String}
    (hpool : c.pool[t]? = some ⟨.call .getAllNodes, .ret (.nodes podIps)⟩) :
    ∃ later reply earlier c', c.log = later ++
        ⟨t, .client (.command (.keys "pokemon:server:heartbeat:*")), reply⟩ :: earlier ∧
      (system text scanPage).Reachable ok init c' ∧ c'.log = earlier ∧
      podIps = (getAllNodes.run (Store.backend scanPage).exec c'.shared.store).1 := by
  have hpath := (System.path_of_reachable h).2 t _ hpool
  obtain ⟨connected, es, hconnected, hkeys⟩ := Path.call_ret_iff.mp hpath
  have hmem : ∀ o r, (⟨o, r⟩ : Exchange TimedOp TimedOp.Res) ∈ history t c.log →
      (⟨t, o, r⟩ : TimedEvent) ∈ c.log := fun _ _ => mem_history.mp
  obtain rfl : connected = true := by
    obtain ⟨s', hs'⟩ := System.executed_of_reachable h _
      (hmem _ _ (hconnected ▸ List.mem_cons_self))
    exact hs'
  obtain ⟨reply, es', rfl, hreturned⟩ := Path.call_ret_iff.mp hkeys
  have hevent := hmem _ _ (hconnected ▸ List.mem_cons_of_mem _ List.mem_cons_self)
  obtain ⟨later, earlier, hlog⟩ := List.append_of_mem hevent
  obtain ⟨c', req, next, hreach, hlog', -, -, hres⟩ := System.exists_before h hlog
  refine ⟨later, reply, earlier, c', hlog, hreach, hlog', ?_⟩
  simp only at hres
  subst hres
  cases (Path.ret_iff.mp hreturned).2
  rfl

theorem alive_iff_heldBy {reqs : List TimedRequest} {log : TimedLog} {podIp : String}
    (hissued : ∀ e ∈ log, ∃ req, reqs[e.tid]? = some req ∧ Issued req e.op) :
    Alive reqs log podIp ↔ ∃ value, HeldBy log (nodeHeartbeatPrefix ++ podIp) value := by
  have hkey := prefix_ne_nodesSetKey podIp
  constructor
  · rintro ⟨call, age, seconds, hlast, htouch, hlt⟩
    have hwrites : call.Writes (nodeHeartbeatPrefix ++ podIp) := by
      obtain ⟨later, ⟨t, op, res⟩, earlier, rfl, hreq, hwrites, -, -⟩ := hlast
      obtain ⟨req, hreq', hop⟩ := hissued _ (List.mem_append_right _ List.mem_cons_self)
      rw [hreq] at hreq'
      cases hreq'
      cases op with
      | pass _ => cases hop
      | client op => exact ClientCall.writes_of_issued hop hwrites hkey
    obtain ⟨value, hsets⟩ := (touchSeconds_iff hwrites).mp htouch
    exact ⟨value, (heldBy_iff_lastWrite hkey hissued).mpr ⟨call, age, seconds, hlast, hsets, hlt⟩⟩
  · rintro ⟨value, hheld⟩
    obtain ⟨call, age, seconds, hlast, hsets, hlt⟩ := (heldBy_iff_lastWrite hkey hissued).mp hheld
    exact ⟨call, age, seconds, hlast,
      (touchSeconds_iff (Or.inl ⟨value, seconds, hsets⟩)).mpr ⟨value, hsets⟩, hlt⟩

/-- The calls write what they are to write, and GetAllNodes lists the pods that are alive
when its KEYS is executed. -/
structure AliveListed (c : TimedConfiguration) : Prop where
  effects : CallsTakeEffect c
  listed : ∀ t podIps, c.pool[t]? = some ⟨.call .getAllNodes, .ret (.nodes podIps)⟩ →
    ∃ later reply earlier, c.log = later ++
        ⟨t, .client (.command (.keys "pokemon:server:heartbeat:*")), reply⟩ :: earlier ∧
      ∀ podIp, podIp ∈ podIps ↔ podIp ≠ "" ∧ Alive (c.pool.map Thread.req) earlier podIp

end nodes

/-! The snapshots of rooms. -/
section snapshots

/-- The last call about the room's snapshot is a SetRoomData of `data`, less than an hour
ago. -/
def WrittenWithinHour (reqs : List TimedRequest) (log : TimedLog) (roomId data : String) : Prop :=
  ∃ age, LastWrite reqs log (roomKey roomId) (.setRoomData roomId data) age ∧ age < 3600

theorem sets_roomKey {call : ClientCall} {roomId data : String} {ex : ℤ} :
    call.Sets (roomKey roomId) data ex ↔ call = .setRoomData roomId data ∧ ex = 3600 := by
  constructor
  · intro hsets
    generalize hkey : roomKey roomId = key at hsets
    cases hsets with
    | touch podIp | register podIp => exact absurd hkey.symm (heartbeatKey_ne_roomKey podIp roomId)
    | room roomId' =>
      obtain rfl := roomKey_injective hkey
      exact ⟨rfl, rfl⟩
  · rintro ⟨rfl, rfl⟩
    exact .room roomId data

theorem writtenWithinHour_iff {reqs : List TimedRequest} {log : TimedLog} {roomId data : String}
    (hissued : ∀ e ∈ log, ∃ req, reqs[e.tid]? = some req ∧ Issued req e.op) :
    WrittenWithinHour reqs log roomId data ↔ HeldBy log (roomKey roomId) data := by
  rw [heldBy_iff_lastWrite (roomKey_ne_nodesSetKey roomId) hissued]
  constructor
  · rintro ⟨age, hlast, hlt⟩
    exact ⟨_, age, 3600, hlast, .room roomId data, by omega⟩
  · rintro ⟨call, age, ex, hlast, hsets, hlt⟩
    obtain ⟨rfl, rfl⟩ := sets_roomKey.mp hsets
    exact ⟨age, hlast, by omega⟩

theorem mem_of_expands {xs : List (Exchange RedisOp RedisOp.Res)}
    {es : List (Exchange TimedOp TimedOp.Res)}
    (h : Expands (fun o => .op (TimedOp.client o)) xs es) {o : RedisOp} {r : o.Res}
    (hmem : ⟨o, r⟩ ∈ xs) : (⟨.client o, r⟩ : Exchange TimedOp TimedOp.Res) ∈ es := by
  induction h with
  | nil => cases hmem
  | cons hpath _ ih =>
    rcases List.mem_cons.mp hmem with heq | hmem
    · cases heq
      obtain ⟨r', fs, rfl, hrest⟩ := Path.call_ret_iff.mp hpath
      obtain ⟨rfl, hret⟩ := Path.ret_iff.mp hrest
      cases hret
      exact List.mem_append_left _ List.mem_cons_self
    · exact List.mem_append_right _ (ih hmem)

theorem get_of_returned (h : (system text scanPage).Reachable ok init c) {t fuel : ℕ}
    {pairs : List (String × String)}
    (hpool : c.pool[t]? = some ⟨.call (.getAllRoomSnapshots fuel), .ret (.snapshots (some pairs))⟩)
    {data : String} (hmem : (key, data) ∈ pairs) :
    (⟨t, .client (.command (.get (cstr key))), some (.string data)⟩ : TimedEvent) ∈ c.log := by
  have hpath := (System.path_of_reachable h).2 t _ hpool
  obtain ⟨xs, hclient, hexpands⟩ := Path.of_expand hpath
  obtain ⟨returned, fs, gs, rfl, hcall, hret⟩ := Path.bind_ret_iff.mp hclient
  obtain ⟨rfl, heq⟩ := Path.ret_iff.mp hret
  cases heq
  have hget := Connection.path_getAllRoomSnapshots hcall hmem
  exact mem_history.mp (mem_of_expands hexpands (List.mem_append_left _ hget))

theorem lookup_of_get {s : ExpiringStore} {data : String}
    (h : some (.string data) = (exec scanPage (.client (.command (.get key))) s).1) :
    s.store.lookup key = some (.string data) := by
  simp only [exec, command, Store.exec] at h
  split at h
  · rename_i value hvalue
    cases h
    exact hvalue
  · cases h
  · cases h

theorem roomPairs_of_returned (h : (system text scanPage).Reachable ok init c) {t fuel : ℕ}
    {pairs : List (String × String)}
    (hpool : c.pool[t]? = some ⟨.call (.getAllRoomSnapshots fuel), .ret (.snapshots (some pairs))⟩) :
    RoomPairs pairs := by
  have hclient : ((ClientCall.getAllRoomSnapshots fuel).client text).Executes Answered
      (fun _ => false) (fun r => ∀ pairs, r = .snapshots (some pairs) → RoomPairs pairs) 0 := by
    refine (getAllRoomSnapshots_roomPairs fuel).bind (m := 0) fun result hresult => ⟨rfl, ?_⟩
    intro pairs heq
    cases heq
    exact hresult pairs rfl
  have hcode : (code text (.call (.getAllRoomSnapshots fuel))).Executes TimedAnswered
      (fun _ => false) (fun r => ∀ pairs, r = .snapshots (some pairs) → RoomPairs pairs) 0 :=
    Prog.Executes.expand (fun o => ⟨nofun, fun r hr => ⟨rfl, hr⟩⟩) hclient
  exact (System.executions_of_returned h (answered_of_reachable h).2 hcode hpool).2 pairs rfl

theorem cstr_roomKey (roomId : String) : cstr (roomKey roomId) = roomKey (cstr roomId) :=
  cstr_append (by decide)

/-- The calls write what they are to write; a snapshot is in Redis for an hour after its
SetRoomData, unless it is deleted before; and what GetAllRoomSnapshots returns was so when
it was read. Its GET stops at the first NUL of a room id. -/
structure SnapshotsExpire (c : TimedConfiguration) : Prop where
  effects : CallsTakeEffect c
  stored : ∀ roomId data, c.shared.store.lookup (roomKey roomId) = some (.string data) ↔
    WrittenWithinHour (c.pool.map Thread.req) c.log roomId data
  read : ∀ (t fuel : ℕ) (pairs : List (String × String)) (key data : String),
    c.pool[t]? = some ⟨.call (.getAllRoomSnapshots fuel), .ret (.snapshots (some pairs))⟩ →
    (key, data) ∈ pairs → ∃ roomId later earlier, key = roomKey roomId ∧ c.log = later ++
        ⟨t, .client (.command (.get (roomKey (cstr roomId)))), some (.string data)⟩ :: earlier ∧
      WrittenWithinHour (c.pool.map Thread.req) earlier (cstr roomId) data

end snapshots

end ExpiringStore

namespace Sample

abbrev expiringRedis : System ExpiringStore TimedRequest TimedOp TimedOp.Res Returned :=
  ExpiringStore.system text scanAll

def redisCall (t n : ℕ) (call : ClientCall) : List (Action TimedRequest) :=
  .start (.call call) :: List.replicate n (.run t)

def wait (t seconds : ℕ) : List (Action TimedRequest) := [.start (.pass seconds), .run t]

def oneOfTwoPodsStops : List (Action TimedRequest) :=
  redisCall 0 4 (.registerNode podA.address) ++ redisCall 1 4 (.registerNode podB.address) ++
    redisCall 2 2 (.setRoomData "r" emptyText) ++ wait 3 200 ++
    redisCall 4 2 (.touchNodeHeartbeat podB.address 30) ++ wait 5 150 ++ redisCall 6 2 .getAllNodes ++
    redisCall 7 3 (.getAllRoomSnapshots 1)

def listsOnly (podIps : List String) (c : ExpiringStore.TimedConfiguration) (t : ℕ) : Bool :=
  match c.pool[t]? with
  | some ⟨.call .getAllNodes, .ret (.nodes listed)⟩ => listed == podIps
  | _ => false

end Sample

namespace ExpiringStore
open Sample

theorem pool_of_listsOnly {podIps : List String} {c : TimedConfiguration} {t : ℕ}
    (h : listsOnly podIps c t = true) :
    c.pool[t]? = some ⟨.call .getAllNodes, .ret (.nodes podIps)⟩ := by
  unfold listsOnly at h
  split at h
  · rename_i listed hpool
    rw [hpool, beq_iff_eq.mp h]
  · cases h

end ExpiringStore
end PokemonServer
