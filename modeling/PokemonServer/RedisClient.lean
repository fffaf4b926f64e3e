import PokemonServer.Interleaving.Prog
import PokemonServer.Json
import PokemonServer.Redis

/-!
# RedisClient

Every method is a program over two operations: the test of `context_` and one
hiredis command, whose reply is null when the connection fails. A `%s` argument
of redisCommand is a C string and ends at the first NUL; redisCommandArgv sends
its arguments with their lengths. The do-while loops over SCAN pages are cut off
after `fuel` pages; a loop that is cut off has no result.
-/

namespace PokemonServer
open Interleaving

inductive RedisOp where
  | isConnected
  | command (cmd : Command)

abbrev RedisOp.Res : RedisOp → Type
  | .isConnected => Bool
  | .command _ => Option Reply

namespace RedisClient

abbrev Client := Prog RedisOp RedisOp.Res

def isConnected : Client Bool := .op RedisOp.isConnected
def redisCommand (cmd : Command) : Client (Option Reply) := .op (RedisOp.command cmd)

def nodesSetKey : String := "pokemon:server:nodes"
def nodeHeartbeatPrefix : String := "pokemon:server:heartbeat:"
def roomKey (roomId : String) : String := "pokemon:room:" ++ roomId
def commandKey (key : String) : String := key ++ ":command"

/-- What a `%s` conversion reads of a std::string's buffer. -/
def cstr (s : String) : String := String.ofList (s.toList.takeWhile (· ≠ '\x00'))

def heartbeatKey (podIp : String) : String := cstr (nodeHeartbeatPrefix ++ podIp)

/-- std::strtoull in base ten, on a decimal numeral. -/
def strtoull (s : String) : ℕ := Nat.ofDigitChars 10 (s.toList.takeWhile Char.isDigit) 0

/-- `key.size() >= 8 && key.compare(key.size() - 8, 8, ":command") == 0` -/
def isCommandKey (key : String) : Bool := ":command".toList.isSuffixOf key.toList

def touchNodeHeartbeat (podIp : String) (ttlSeconds : ℤ) : Client Bool := do
  if !(← isConnected) then
    return false
  let ttlSeconds := if ttlSeconds < 300 then 300 else ttlSeconds
  match ← redisCommand (.set (heartbeatKey podIp) "1" ttlSeconds) with
  | none => return false
  | some reply => return reply.isStatusOk

def registerNode (podIp : String) : Client Bool := do
  if !(← isConnected) then
    return false
  match ← redisCommand (.sadd (cstr nodesSetKey) (cstr podIp)) with
  | none => return false
  | some reply =>
    if reply.isNonnegInteger then
      let _ ← touchNodeHeartbeat podIp 30
      return true
    else
      return false

def unregisterNode (podIp : String) : Client Bool := do
  if !(← isConnected) then
    return false
  match ← redisCommand (.del [cstr nodesSetKey, heartbeatKey podIp]) with
  | none => return false
  | some reply => return reply.isNonnegInteger

def podIpOf : Reply → Option String
  | .string key =>
    if nodeHeartbeatPrefix.toList.isPrefixOf key.toList &&
        nodeHeartbeatPrefix.toList.length < key.toList.length then
      some (String.ofList (key.toList.drop nodeHeartbeatPrefix.toList.length))
    else none
  | _ => none

def getAllNodes : Client (List String) := do
  if !(← isConnected) then
    return []
  match ← redisCommand (.keys "pokemon:server:heartbeat:*") with
  | some (.array elements) => return elements.filterMap podIpOf
  | _ => return []

def setRoomData (roomId data : String) : Client Bool := do
  if !(← isConnected) then
    return false
  match ← redisCommand (.set (roomKey roomId) data 3600) with
  | none => return false
  | some reply => return reply.isStatusOk

def deleteRoomData (roomId : String) : Client Bool := do
  if !(← isConnected) then
    return false
  match ← redisCommand (.del [cstr (roomKey roomId), cstr (commandKey (roomKey roomId))]) with
  | none => return false
  | some reply => return reply.isInteger

section scan
variable {β : Type}

/-- One page of keys: every string that is not a command key is fetched, and
`visit` is called with each string value. -/
def visitKeys (visit : String → String → β → Client β) : List Reply → β → Client β
  | [], acc => return acc
  | .string key :: rest, acc =>
    if isCommandKey key then visitKeys visit rest acc
    else do
      match ← redisCommand (.get (cstr key)) with
      | some (.string value) =>
        let acc ← visit key value acc
        visitKeys visit rest acc
      | _ => visitKeys visit rest acc
  | _ :: rest, acc => visitKeys visit rest acc

/-- The SCAN loop of GetAllRoomSnapshots and DeleteRoomsForServer. -/
def scanRooms (visit : String → String → β → Client β) : ℕ → ℕ → β → Client (Option β)
  | 0, _, _ => return none
  | fuel + 1, cursor, acc => do
    match ← redisCommand (.scan cursor "pokemon:room:*" 128) with
    | some (.array (cursorReply :: keysReply :: _)) =>
      let cursor := strtoull cursorReply.str
      let acc ← match keysReply with
        | .array keys => visitKeys visit keys acc
        | _ => pure acc
      if cursor ≠ 0 then scanRooms visit fuel cursor acc else return some acc
    | _ => return some acc

end scan

abbrev collectSnapshot (key value : String) (snapshots : List (String × String)) :
    Client (List (String × String)) :=
  return snapshots ++ [(key, value)]

def getAllRoomSnapshots (fuel : ℕ) : Client (Option (List (String × String))) := do
  if !(← isConnected) then
    return some []
  scanRooms collectSnapshot fuel 0 []

/-- `j.contains("server_id") && j["server_id"].is_string() && ... == pod_ip` -/
def ownedBy (podIp : String) (j : Json) : Bool :=
  match j.field? "server_id" with
  | some (.string serverId) => serverId == podIp
  | _ => false

def deleteRoomsForServer (text : JsonText) (podIp : String) (fuel : ℕ) :
    Client (Option Bool) := do
  if !(← isConnected) then
    return some false
  scanRooms (fun key value anyDeleted =>
    match text.parse value with
    | .ok j =>
      if ownedBy podIp j then do
        let _ ← redisCommand (.del [cstr key, cstr (commandKey key)])
        return true
      else return anyDeleted
    | .error _ => return anyDeleted) fuel 0 false

theorem visitKeys_issues {β : Type} {P : RedisOp → Prop} (hget : ∀ key, P (.command (.get key)))
    {visit : String → String → β → Client β}
    (hvisit : ∀ key value acc, (visit key value acc).Issues P) (keys : List Reply) (acc : β) :
    (visitKeys visit keys acc).Issues P := by
  induction keys generalizing acc with
  | nil => trivial
  | cons reply keys ih =>
    cases reply with
    | string key =>
      rw [visitKeys]
      split
      · exact ih acc
      · refine ⟨hget _, fun got => ?_⟩
        cases got with
        | none => exact ih acc
        | some got =>
          cases got with
          | string value => exact (hvisit key value acc).bind fun acc => ih acc
          | status _ | error _ | integer _ | nil | array _ => exact ih acc
    | status _ | error _ | integer _ | nil | array _ => exact ih acc

theorem strtoull_toString (n : ℕ) : strtoull (toString n) = n := by
  have hdigits : (Nat.toDigits 10 n).takeWhile Char.isDigit = Nat.toDigits 10 n :=
    List.takeWhile_eq_self_iff.mpr fun c hc => Nat.isDigit_of_mem_toDigits (by omega) (by omega) hc
  simp [strtoull, Nat.toString_eq_repr, Nat.repr, hdigits]

theorem scanRooms_turn {β σ : Type} (visit : String → String → β → Client β) (fuel : ℕ) (acc : β)
    {exec : (op : RedisOp) → σ → op.Res × σ} {cursor next : ℕ} {keys : List Reply} {st st' : σ}
    (hscan : exec (.command (.scan cursor "pokemon:room:*" 128)) st =
      (some (.array [.string (toString next), .array keys]), st')) :
    (scanRooms visit (fuel + 1) cursor acc).run exec st =
      let visited := (visitKeys visit keys acc).run exec st'
      if next = 0 then (some visited.1, visited.2)
      else (scanRooms visit fuel next visited.1).run exec visited.2 := by
  have hpage : (scanRooms visit (fuel + 1) cursor acc).run exec st =
      (visitKeys visit keys acc >>= fun acc' => if strtoull (toString next) ≠ 0 then
        scanRooms visit fuel (strtoull (toString next)) acc'
      else return some acc').run exec st' := by
    rw [scanRooms, redisCommand, Prog.op_bind, Prog.run_call, hscan]
    rfl
  rw [hpage, Prog.run_bind, strtoull_toString]
  by_cases hzero : next = 0
  · rw [if_neg (not_not.mpr hzero)]
    simp only [if_pos hzero]
    rfl
  · rw [if_pos hzero]
    simp only [if_neg hzero]

theorem cstr_of_noNul {s : String} (h : '\x00' ∉ s.toList) : cstr s = s := by
  have : s.toList.takeWhile (· ≠ '\x00') = s.toList :=
    List.takeWhile_eq_self_iff.mpr fun c hc => by
      simp only [ne_eq, decide_eq_true_eq]
      rintro rfl
      exact h hc
  rw [cstr, this, String.ofList_toList]

/-- A pod ip comes from the environment, as a C string. -/
structure PodIp where
  address : String
  noNul : '\x00' ∉ address.toList

theorem heartbeatKey_pod (pod : PodIp) :
    heartbeatKey pod.address = nodeHeartbeatPrefix ++ pod.address := by
  refine cstr_of_noNul ?_
  rw [String.toList_append, List.mem_append, not_or]
  exact ⟨by decide, pod.noNul⟩

theorem roomKey_injective : Function.Injective roomKey := fun r s h => by
  simpa [roomKey] using h

end RedisClient
end PokemonServer
