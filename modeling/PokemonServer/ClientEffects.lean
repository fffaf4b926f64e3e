import PokemonServer.GameService
import PokemonServer.Interleaving.Effects
import PokemonServer.RoomKeys
import PokemonServer.SharedConnection

/-!
# What the methods of RedisClient execute

As long as Redis answers, and `pokemon:server:nodes` holds nothing but a set, each method
that writes executes its command, or its two, and returns true. Which commands count is up
to the reader of the lemmas.
-/

namespace PokemonServer
open Interleaving RedisClient

/-- The reply is one that a Redis in order gives to the command. -/
def Answered : (op : RedisOp) → op.Res → Prop
  | .isConnected, connected => connected = true
  | .command (.set _ _ ex), reply => 0 < ex → reply = some (.status "OK")
  | .command (.del _), reply => ∃ n : ℤ, 0 ≤ n ∧ reply = some (.integer n)
  | .command (.sadd key _), reply =>
    key = nodesSetKey → ∃ n : ℤ, 0 ≤ n ∧ reply = some (.integer n)
  | .command (.scan _ pattern _), reply =>
    ∀ cursor keys rest, reply = some (.array (cursor :: .array keys :: rest)) →
      ∀ key, .string key ∈ keys → matchesPattern pattern key = true
  | _, _ => True

def RedisOp.writes (key : String) : RedisOp → Bool
  | .isConnected => false
  | .command cmd => decide (key ∈ cmd.writes)

namespace Store

def NodesTyped (s : Store) : Prop := ∀ value, s.lookup nodesSetKey ≠ some (.string value)

theorem delKeys_nonneg (keys : List String) (s : Store) : 0 ≤ (delKeys keys s).1 := by
  induction keys generalizing s with
  | nil => exact le_rfl
  | cons key keys ih =>
    have hrest := ih (s.erase key)
    simp only [delKeys]
    split <;> omega

theorem answered_exec {s : Store} (h : s.NodesTyped) (scanPage : ScanPolicy) (cmd : Command) :
    Answered (.command cmd) (some (exec scanPage cmd s).1) := by
  cases cmd with
  | set key value ex => exact fun _ => rfl
  | del keys => exact ⟨_, delKeys_nonneg keys s, rfl⟩
  | sadd key member =>
    rintro rfl
    simp only [exec]
    split
    · exact ⟨_, by split <;> omega, rfl⟩
    · exact absurd ‹_› (h _)
    · exact ⟨1, by omega, rfl⟩
  | scan cursor pattern count =>
    intro cursorReply keys rest hreply key hkey
    cases hreply
    obtain ⟨key', hmem, heq⟩ := List.mem_map.mp hkey
    cases heq
    exact (List.mem_filter.mp hmem).2
  | get _ | keys _ => trivial

theorem NodesTyped.exec {s : Store} (h : s.NodesTyped) (scanPage : ScanPolicy) {cmd : Command}
    (hcmd : ∀ value ex, cmd ≠ .set nodesSetKey value ex) : (exec scanPage cmd s).2.NodesTyped := by
  intro value hvalue
  by_cases hwrites : nodesSetKey ∈ cmd.writes
  · rcases Command.cases_of_writes hwrites with ⟨v, ex, rfl⟩ | ⟨member, rfl⟩ | ⟨keys, rfl, hmem⟩
    · exact hcmd v ex rfl
    · simp only [Store.exec] at hvalue
      split at hvalue
      · simp at hvalue
      · exact absurd ‹_› (h _)
      · simp at hvalue
    · simp [Store.exec, lookup_delKeys, hmem] at hvalue
  · rw [lookup_exec_of_not_writes scanPage hwrites] at hvalue
    exact h value hvalue

end Store

theorem cstr_nodesSetKey : cstr nodesSetKey = nodesSetKey :=
  cstr_of_noNul (by decide)

section methods
variable {marked : RedisOp → Bool}

theorem command_executes (hconnected : marked .isConnected = false) {cmd : Command} {b : Bool}
    {next : Option Reply → Client Bool}
    (hnext : ∀ reply, Answered (.command cmd) reply → next reply = .ret true) :
    (Prog.call .isConnected fun connected =>
        if !connected then .ret b else .call (.command cmd) next : Client Bool).Executes Answered
      marked (· = true) (if marked (.command cmd) then 1 else 0) := by
  refine ⟨fun h => ?_, fun connected hc => ?_⟩
  · rw [hconnected] at h
    cases h
  · obtain rfl : connected = true := hc
    rw [hconnected]
    refine ⟨fun h => ?_, fun reply hreply => ?_⟩
    · simp [h]
    · rw [hnext reply hreply]
      refine ⟨?_, rfl⟩
      by_cases h : marked (.command cmd) = true <;> simp [h]

theorem touchNodeHeartbeat_executes (hconnected : marked .isConnected = false) (podIp : String)
    (ttlSeconds : ℤ) :
    (touchNodeHeartbeat podIp ttlSeconds).Executes Answered marked (· = true)
      (if marked (.command (.set (heartbeatKey podIp) "1"
        (if ttlSeconds < 300 then 300 else ttlSeconds))) then 1 else 0) := by
  refine command_executes hconnected fun reply hreply => ?_
  have hpos : 0 < if ttlSeconds < 300 then (300 : ℤ) else ttlSeconds := by split <;> omega
  rw [hreply hpos]
  rfl

theorem unregisterNode_executes (hconnected : marked .isConnected = false) (podIp : String) :
    (unregisterNode podIp).Executes Answered marked (· = true)
      (if marked (.command (.del [nodesSetKey, heartbeatKey podIp])) then 1 else 0) := by
  rw [← cstr_nodesSetKey]
  refine command_executes hconnected fun reply hreply => ?_
  obtain ⟨n, hn, rfl⟩ := hreply
  exact congrArg Prog.ret (decide_eq_true hn)

theorem setRoomData_executes (hconnected : marked .isConnected = false) (roomId data : String) :
    (setRoomData roomId data).Executes Answered marked (· = true)
      (if marked (.command (.set (roomKey roomId) data 3600)) then 1 else 0) := by
  refine command_executes hconnected fun reply hreply => ?_
  rw [hreply (by decide)]
  rfl

theorem deleteRoomData_executes (hconnected : marked .isConnected = false) (roomId : String) :
    (deleteRoomData roomId).Executes Answered marked (· = true)
      (if marked (.command (.del (deletedKeys roomId))) then 1 else 0) := by
  refine command_executes hconnected fun reply hreply => ?_
  obtain ⟨n, -, rfl⟩ := hreply
  rfl

theorem registerNode_executes (hconnected : marked .isConnected = false) (podIp : String) :
    (registerNode podIp).Executes Answered marked (· = true)
      ((if marked (.command (.sadd nodesSetKey (cstr podIp))) then 1 else 0) +
        if marked (.command (.set (heartbeatKey podIp) "1" 300)) then 1 else 0) := by
  have htouch : (touchNodeHeartbeat podIp 30 >>= fun _ => .ret true : Client Bool).Executes
      Answered marked (· = true)
      (if marked (.command (.set (heartbeatKey podIp) "1" 300)) then 1 else 0) :=
    (touchNodeHeartbeat_executes hconnected podIp 30).bind (m := 0) fun _ _ => ⟨rfl, rfl⟩
  rw [← cstr_nodesSetKey]
  refine ⟨fun h => ?_, fun connected hc => ?_⟩
  · rw [hconnected] at h
    cases h
  · obtain rfl : connected = true := hc
    rw [hconnected]
    refine ⟨fun h => ?_, fun reply hreply => ?_⟩
    · simp only [h, if_true, Bool.false_eq_true, if_false]
      omega
    · obtain ⟨n, hn, rfl⟩ := hreply cstr_nodesSetKey
      have hnonneg : (Reply.integer n).isNonnegInteger = true := decide_eq_true hn
      show Prog.Executes _ _ _ _ (if (Reply.integer n).isNonnegInteger = true then _ else _)
      rw [if_pos hnonneg]
      by_cases h : marked (.command (.sadd (cstr nodesSetKey) (cstr podIp))) = true
      · simp only [h, if_true, Bool.false_eq_true, if_false, Nat.add_sub_cancel_left]
        exact htouch
      · simp only [h, Bool.false_eq_true, if_false, Nat.zero_add]
        exact htouch

end methods

/-! The SCAN loops read and delete nothing but keys of rooms. -/
section scan
variable {β : Type} {P : RedisOp → Prop} {visit : String → String → β → Client β}

theorem visitKeys_given (hget : ∀ key, P (.command (.get key))) {keys : List Reply}
    (hvisit : ∀ key, .string key ∈ keys → ∀ value acc, (visit key value acc).IssuesGiven Answered P)
    (acc : β) : (visitKeys visit keys acc).IssuesGiven Answered P := by
  induction keys generalizing acc with
  | nil => trivial
  | cons reply keys ih =>
    have hrest := ih fun key hkey => hvisit key (List.mem_cons_of_mem _ hkey)
    cases reply with
    | string key =>
      rw [visitKeys]
      split
      · exact hrest acc
      · refine ⟨hget _, fun got _ => ?_⟩
        cases got with
        | none => exact hrest acc
        | some got =>
          cases got with
          | string value =>
            exact (hvisit key List.mem_cons_self value acc).bind fun acc => hrest acc
          | status _ | error _ | integer _ | nil | array _ => exact hrest acc
    | status _ | error _ | integer _ | nil | array _ => exact hrest acc

theorem scanRooms_given (hscan : ∀ cursor, P (.command (.scan cursor "pokemon:room:*" 128)))
    (hget : ∀ key, P (.command (.get key)))
    (hvisit : ∀ key, isRoomKey key = true → ∀ value acc,
      (visit key value acc).IssuesGiven Answered P) (fuel cursor : ℕ) (acc : β) :
    (scanRooms visit fuel cursor acc).IssuesGiven Answered P := by
  induction fuel generalizing cursor acc with
  | zero => trivial
  | succ fuel ih =>
    have hnext : ∀ (cursor : ℕ) (acc : β), (if cursor ≠ 0 then scanRooms visit fuel cursor acc
        else return some acc : Client (Option β)).IssuesGiven Answered P := by
      intro cursor acc
      split
      · exact ih cursor acc
      · trivial
    refine ⟨hscan cursor, fun reply hreply => ?_⟩
    match reply with
    | some (.array (cursorReply :: .array keys :: rest)) =>
      have hkeys := hreply cursorReply keys rest rfl
      exact (visitKeys_given hget (fun key hkey => hvisit key (hkeys key hkey)) acc).bind
        fun acc => hnext _ acc
    | some (.array (_ :: .status _ :: _)) | some (.array (_ :: .error _ :: _))
    | some (.array (_ :: .integer _ :: _)) | some (.array (_ :: .string _ :: _))
    | some (.array (_ :: .nil :: _)) => exact hnext _ acc
    | some (.array []) | some (.array [_]) | none | some (.status _) | some (.error _)
    | some (.integer _) | some (.string _) | some .nil => trivial

def RoomPairs (pairs : List (String × String)) : Prop := ∀ x ∈ pairs, isRoomKey x.1 = true

theorem visitKeys_roomPairs {keys : List Reply}
    (hkeys : ∀ key, .string key ∈ keys → isRoomKey key = true) {pairs : List (String × String)}
    (hpairs : RoomPairs pairs) :
    (visitKeys collectSnapshot keys pairs).Executes Answered (fun _ => false) RoomPairs 0 := by
  induction keys generalizing pairs with
  | nil => exact ⟨rfl, hpairs⟩
  | cons reply keys ih =>
    have hrest : ∀ pairs, RoomPairs pairs → (visitKeys collectSnapshot keys pairs).Executes Answered
        (fun _ => false) RoomPairs 0 := fun _ hpairs =>
      ih (fun key hkey => hkeys key (List.mem_cons_of_mem _ hkey)) hpairs
    cases reply with
    | string key =>
      rw [visitKeys]
      split
      · exact hrest pairs hpairs
      · refine ⟨fun h => absurd h Bool.false_ne_true, fun got _ => ?_⟩
        cases got with
        | none => exact hrest pairs hpairs
        | some got =>
          cases got with
          | string value =>
            refine hrest _ fun x hx => ?_
            rcases List.mem_append.mp hx with hx | hx
            · exact hpairs x hx
            · rw [List.mem_singleton.mp hx]
              exact hkeys key List.mem_cons_self
          | status _ | error _ | integer _ | nil | array _ => exact hrest pairs hpairs
    | status _ | error _ | integer _ | nil | array _ => exact hrest pairs hpairs

theorem scanRooms_roomPairs (fuel cursor : ℕ) {pairs : List (String × String)}
    (hpairs : RoomPairs pairs) :
    (scanRooms collectSnapshot fuel cursor pairs).Executes Answered (fun _ => false)
      (fun result => ∀ pairs, result = some pairs → RoomPairs pairs) 0 := by
  induction fuel generalizing cursor pairs with
  | zero => exact ⟨rfl, nofun⟩
  | succ fuel ih =>
    have hstop : ∀ pairs, RoomPairs pairs → (.ret (some pairs) : Client _).Executes Answered
        (fun _ => false) (fun result => ∀ pairs, result = some pairs → RoomPairs pairs) 0 := by
      intro pairs hpairs
      refine ⟨rfl, fun _ h => ?_⟩
      cases h
      exact hpairs
    have hnext : ∀ (cursor : ℕ) (pairs : List (String × String)), RoomPairs pairs →
        (if cursor ≠ 0 then scanRooms collectSnapshot fuel cursor pairs
          else return some pairs : Client _).Executes Answered (fun _ => false)
          (fun result => ∀ pairs, result = some pairs → RoomPairs pairs) 0 := by
      intro cursor pairs hpairs
      split
      · exact ih cursor hpairs
      · exact hstop pairs hpairs
    refine ⟨nofun, fun reply hreply => ?_⟩
    match reply with
    | some (.array (cursorReply :: .array keys :: rest)) =>
      have hkeys := hreply cursorReply keys rest rfl
      exact (visitKeys_roomPairs hkeys hpairs).bind (m := 0) fun pairs => hnext _ pairs
    | some (.array (_ :: .status _ :: _)) | some (.array (_ :: .error _ :: _))
    | some (.array (_ :: .integer _ :: _)) | some (.array (_ :: .string _ :: _))
    | some (.array (_ :: .nil :: _)) => exact hnext _ pairs hpairs
    | some (.array []) | some (.array [_]) | none | some (.status _) | some (.error _)
    | some (.integer _) | some (.string _) | some .nil => exact hstop pairs hpairs

theorem getAllRoomSnapshots_roomPairs (fuel : ℕ) :
    (getAllRoomSnapshots fuel).Executes Answered (fun _ => false)
      (fun result => ∀ pairs, result = some pairs → RoomPairs pairs) 0 := by
  refine ⟨nofun, fun connected hc => ?_⟩
  obtain rfl : connected = true := hc
  exact scanRooms_roomPairs fuel 0 nofun

end scan

theorem touchNodeHeartbeat_given {P : RedisOp → Prop} {podIp : String} {ttlSeconds : ℤ}
    (hconnected : P .isConnected)
    (hset : P (.command (.set (heartbeatKey podIp) "1"
      (if ttlSeconds < 300 then 300 else ttlSeconds)))) :
    (touchNodeHeartbeat podIp ttlSeconds).IssuesGiven Answered P := by
  refine ⟨hconnected, fun connected _ => ?_⟩
  cases connected with
  | false => trivial
  | true =>
    refine ⟨hset, fun reply _ => ?_⟩
    cases reply <;> trivial

/-! Which keys the calls write. -/
namespace ClientCall

inductive Sets : ClientCall → String → String → ℤ → Prop
  | touch (podIp : String) (ttlSeconds : ℤ) :
      Sets (.touchNodeHeartbeat podIp ttlSeconds) (heartbeatKey podIp) "1"
        (if ttlSeconds < 300 then 300 else ttlSeconds)
  | register (podIp : String) : Sets (.registerNode podIp) (heartbeatKey podIp) "1" 300
  | room (roomId data : String) : Sets (.setRoomData roomId data) (roomKey roomId) data 3600

inductive Deletes : ClientCall → List String → Prop
  | unregister (podIp : String) :
      Deletes (.unregisterNode podIp) [nodesSetKey, heartbeatKey podIp]
  | room (roomId : String) : Deletes (.deleteRoomData roomId) (deletedKeys roomId)
  | cleanUp (podIp roomId : String) (fuel : ℕ) :
      Deletes (.deleteRoomsForServer podIp fuel) (deletedKeys roomId)

def Issued (call : ClientCall) : RedisOp → Prop
  | .command (.set key value ex) => call.Sets key value ex
  | .command (.del keys) => call.Deletes keys
  | .command (.sadd key _) => key = nodesSetKey
  | _ => True

theorem client_given (text : JsonText) (call : ClientCall) :
    (call.client text).IssuesGiven Answered call.Issued := by
  cases call with
  | touchNodeHeartbeat podIp ttlSeconds =>
    exact (touchNodeHeartbeat_given trivial (.touch _ _)).bind fun _ => trivial
  | registerNode podIp =>
    refine ⟨trivial, fun connected _ => ?_⟩
    cases connected with
    | false => trivial
    | true =>
    refine ⟨cstr_nodesSetKey, fun reply _ => ?_⟩
    cases reply with
    | none => trivial
    | some reply =>
    show Prog.IssuesGiven _ _ ((if reply.isNonnegInteger = true then _ else _) >>= _)
    split
    · refine Prog.IssuesGiven.bind ?_ fun _ => trivial
      have htouch : (RedisClient.touchNodeHeartbeat podIp 30).IssuesGiven Answered
          (Issued (.registerNode podIp)) :=
        touchNodeHeartbeat_given trivial (.register podIp)
      exact htouch.bind fun _ => trivial
    · trivial
  | unregisterNode podIp =>
    refine ⟨trivial, fun connected _ => ?_⟩
    cases connected with
    | false => trivial
    | true =>
      have hdel : Deletes (.unregisterNode podIp) [cstr nodesSetKey, heartbeatKey podIp] := by
        rw [cstr_nodesSetKey]
        exact .unregister podIp
      refine ⟨hdel, fun reply _ => ?_⟩
      cases reply <;> trivial
  | getAllNodes =>
    refine ⟨trivial, fun connected _ => ?_⟩
    cases connected with
    | false => trivial
    | true =>
      refine ⟨trivial, fun reply _ => ?_⟩
      match reply with
      | some (.array _) | none | some (.status _) | some (.error _) | some (.integer _)
      | some (.string _) | some .nil => trivial
  | setRoomData roomId data =>
    refine ⟨trivial, fun connected _ => ?_⟩
    cases connected with
    | false => trivial
    | true =>
      refine ⟨.room roomId data, fun reply _ => ?_⟩
      cases reply <;> trivial
  | deleteRoomData roomId =>
    refine ⟨trivial, fun connected _ => ?_⟩
    cases connected with
    | false => trivial
    | true =>
      refine ⟨.room roomId, fun reply _ => ?_⟩
      cases reply <;> trivial
  | getAllRoomSnapshots fuel =>
    refine ⟨trivial, fun connected _ => ?_⟩
    cases connected with
    | false => trivial
    | true =>
      refine Prog.IssuesGiven.bind ?_ fun _ => trivial
      exact scanRooms_given (fun _ => trivial) (fun _ => trivial)
        (fun key _ value acc => show Prog.IssuesGiven _ _ (.ret _) from trivial) fuel 0 []
  | deleteRoomsForServer podIp fuel =>
    refine ⟨trivial, fun connected _ => ?_⟩
    cases connected with
    | false => trivial
    | true =>
      refine Prog.IssuesGiven.bind ?_ fun _ => trivial
      refine scanRooms_given (fun _ => trivial) (fun _ => trivial)
        (fun key hkey value acc => ?_) fuel 0 false
      obtain ⟨roomId, rfl⟩ := isRoomKey_iff.mp hkey
      split
      · split
        · exact ⟨.cleanUp podIp roomId fuel, fun _ _ => trivial⟩
        · trivial
      · trivial

def Writes (call : ClientCall) (key : String) : Prop :=
  (∃ value ex, call.Sets key value ex) ∨ ∃ keys, call.Deletes keys ∧ key ∈ keys

theorem writes_of_issued {call : ClientCall} {op : RedisOp} {key : String}
    (h : call.Issued op) (hwrites : op.writes key = true) (hkey : key ≠ nodesSetKey) :
    call.Writes key := by
  cases op with
  | isConnected => cases hwrites
  | command cmd =>
    rcases Command.cases_of_writes (of_decide_eq_true hwrites) with
      ⟨value, ex, rfl⟩ | ⟨member, rfl⟩ | ⟨keys, rfl, hmem⟩
    · exact Or.inl ⟨value, ex, h⟩
    · exact absurd h hkey
    · exact Or.inr ⟨keys, h, hmem⟩

theorem Sets.op_eq {call : ClientCall} {op : RedisOp} {key value : String} {ex : ℤ}
    (h : call.Sets key value ex) (hissued : call.Issued op) (hwrites : op.writes key = true)
    (hkey : key ≠ nodesSetKey) : op = .command (.set key value ex) := by
  cases op with
  | isConnected => cases hwrites
  | command cmd =>
    rcases Command.cases_of_writes (of_decide_eq_true hwrites) with
      ⟨value', ex', rfl⟩ | ⟨member, rfl⟩ | ⟨keys, rfl, -⟩
    · have hsets : call.Sets key value' ex' := hissued
      cases h with
      | touch podIp ttlSeconds | register podIp | room roomId data =>
        cases hsets
        rfl
    · exact absurd hissued hkey
    · have hdeletes : call.Deletes keys := hissued
      cases h <;> cases hdeletes

def key : ClientCall → Option String
  | .touchNodeHeartbeat podIp _ | .registerNode podIp | .unregisterNode podIp =>
    some (heartbeatKey podIp)
  | .setRoomData roomId _ => some (roomKey roomId)
  | .deleteRoomData roomId => some (cstr (roomKey roomId))
  | .getAllNodes | .getAllRoomSnapshots _ | .deleteRoomsForServer _ _ => none

/-- A call writes its key once, and returns true. -/
theorem client_executes (text : JsonText) {call : ClientCall} {key : String}
    (hkey : call.key = some key) :
    (call.client text).Executes Answered (RedisOp.writes key) (· = .bool true) 1 := by
  have hbool : ∀ {p : Client Bool} {n : ℕ}, p.Executes Answered (RedisOp.writes key) (· = true) n →
      n = 1 → (p >>= fun b => .ret (Returned.bool b)).Executes Answered (RedisOp.writes key)
        (· = .bool true) 1 := by
    rintro p n hp rfl
    exact hp.bind (m := 0) fun b hb => ⟨rfl, by rw [hb]⟩
  cases call with
  | touchNodeHeartbeat podIp ttlSeconds =>
    cases hkey
    exact hbool (touchNodeHeartbeat_executes rfl podIp ttlSeconds)
      (by simp [RedisOp.writes, Command.writes])
  | registerNode podIp =>
    cases hkey
    refine hbool (registerNode_executes rfl podIp) ?_
    simp [RedisOp.writes, Command.writes, heartbeatKey_ne_nodesSetKey]
  | unregisterNode podIp =>
    cases hkey
    exact hbool (unregisterNode_executes rfl podIp) (by simp [RedisOp.writes, Command.writes])
  | setRoomData roomId data =>
    cases hkey
    exact hbool (setRoomData_executes rfl roomId data) (by simp [RedisOp.writes, Command.writes])
  | deleteRoomData roomId =>
    cases hkey
    exact hbool (deleteRoomData_executes rfl roomId)
      (by simp [RedisOp.writes, Command.writes, deletedKeys])
  | getAllNodes | getAllRoomSnapshots _ | deleteRoomsForServer _ _ => cases hkey

end ClientCall
end PokemonServer
