import PokemonServer.HandlerRuns

/-!
# CollectMetricsSnapshot

The numbers that the metrics thread publishes. A stored room snapshot counts as an
active room when its text is a JSON object with a `status` that reads as the int 1;
every other snapshot is skipped. Ratios are exact here and doubles in the source, and the
global counts are unbounded here and ints in the source.
-/

namespace PokemonServer
open Interleaving RedisClient

structure MetricsSnapshot where
  localActiveRooms : ℤ
  localMaxRooms : ℤ
  globalActiveRooms : ℤ
  globalCapacity : ℤ
  localUtilization : ℚ
  globalUtilization : ℚ
  minUtilization : ℚ
  deriving DecidableEq

def utilization (active capacity : ℤ) : ℚ := if 0 < capacity then active / capacity else 0

def readsActive (roomJson : Json) : Bool :=
  match roomJson.contains "status", (roomJson.index "status").getInt with
  | true, .ok status => status == 1
  | _, _ => false

/-- The body of the try block that counts one entry; an exception skips the entry. -/
def countsAsActive (text : JsonText) (data : String) : Bool :=
  match text.parse data with
  | .error _ => false
  | .ok roomJson => readsActive roomJson

namespace GameService

def refreshHeartbeat (podIp : String) (ttlSeconds : ℤ) : Client Unit := do
  if ← isConnected then
    let _ ← touchNodeHeartbeat podIp ttlSeconds
    return ()
  else
    return ()

/-- Without a result when the SCAN loop is cut off. -/
def collectMetricsSnapshot (cfg : ServiceConfig) (fuel : ℕ) : Handler (Option MetricsSnapshot) := do
  let localActiveRooms ← .op ServerOp.getRoomCount
  let localMaxRooms ← .op ServerOp.getMaxRooms
  let _ ← redis (refreshHeartbeat cfg.podIp 30)
  let localUtilization := utilization localActiveRooms localMaxRooms
  if !(← redis isConnected) then
    return some ⟨localActiveRooms, localMaxRooms, 0, 0, localUtilization, 0, 0⟩
  let nodes ← redis getAllNodes
  match ← redis (getAllRoomSnapshots fuel) with
  | none => return none
  | some roomSnapshots =>
    let globalActiveRooms : ℤ := roomSnapshots.countP fun entry => countsAsActive cfg.text entry.2
    let globalCapacity : ℤ := nodes.length * localMaxRooms
    let globalUtilization := utilization globalActiveRooms globalCapacity
    return some ⟨localActiveRooms, localMaxRooms, globalActiveRooms, globalCapacity,
      localUtilization, globalUtilization, globalUtilization⟩

theorem globalActiveRooms_run {sim : Simulator} {R : Type} {B : RedisBackend R}
    (cfg : ServiceConfig) (s : ServerState sim R) {fuel : ℕ} {redis : R}
    (htouch : ((refreshHeartbeat cfg.podIp 30).run B.exec s.redis).2 = redis)
    (hconnected : isConnected.run B.exec redis = (true, redis))
    (hnodes : (getAllNodes.run B.exec redis).2 = redis) {pairs : List (String × String)}
    (hpairs : ((getAllRoomSnapshots fuel).run B.exec redis).1 = some pairs) :
    ∃ snapshot, ((collectMetricsSnapshot cfg fuel).run (exec B) s).1 = some snapshot ∧
      snapshot.globalActiveRooms = pairs.countP fun entry => countsAsActive cfg.text entry.2 := by
  simp [collectMetricsSnapshot, exec, run_redis, htouch, hconnected, hnodes, hpairs]

end GameService

theorem podIpOf_eq_some {key podIp : String} :
    podIpOf (.string key) = some podIp ↔ key = nodeHeartbeatPrefix ++ podIp ∧ podIp ≠ "" := by
  simp only [podIpOf, Option.ite_none_right_eq_some, Option.some.injEq, Bool.and_eq_true,
    List.isPrefixOf_iff_prefix, decide_eq_true_eq]
  constructor
  · rintro ⟨⟨⟨rest, hrest⟩, hlt⟩, hpod⟩
    rw [← hrest, List.drop_left] at hpod
    have hkey : key = nodeHeartbeatPrefix ++ podIp := by
      rw [← String.toList_inj, String.toList_append, ← hrest, ← hpod, String.toList_ofList]
    refine ⟨hkey, ?_⟩
    rintro rfl
    rw [hkey, String.append_empty] at hlt
    exact lt_irrefl _ hlt
  · rintro ⟨rfl, hpod⟩
    have hpos : 0 < podIp.toList.length := by
      rw [List.length_pos_iff]
      exact fun hnil => hpod (String.toList_inj.mp hnil)
    rw [String.toList_append]
    refine ⟨⟨List.prefix_append _ _, ?_⟩, ?_⟩
    · rw [List.length_append]
      omega
    · rw [List.drop_left, String.ofList_toList]

theorem matchesPattern_heartbeat (podIp : String) :
    matchesPattern "pokemon:server:heartbeat:*" (nodeHeartbeatPrefix ++ podIp) = true := by
  have hpattern : "pokemon:server:heartbeat:*".toList = nodeHeartbeatPrefix.toList ++ ['*'] := by
    decide
  rw [matchesPattern, hpattern, glob_prefix _ (by decide), String.toList_append]
  exact List.prefix_append _ _

theorem mem_getAllNodes (scanPage : ScanPolicy) (s : Store) (podIp : String) :
    podIp ∈ (getAllNodes.run (Store.backend scanPage).exec s).1 ↔
      nodeHeartbeatPrefix ++ podIp ∈ s ∧ podIp ≠ "" := by
  have hrun : (getAllNodes.run (Store.backend scanPage).exec s).1 =
      ((s.keys.filter (matchesPattern "pokemon:server:heartbeat:*")).map .string).filterMap
        podIpOf := rfl
  rw [hrun, List.mem_filterMap]
  constructor
  · rintro ⟨reply, hreply, hsome⟩
    obtain ⟨key, hkey, rfl⟩ := List.mem_map.mp hreply
    obtain ⟨rfl, hpod⟩ := podIpOf_eq_some.mp hsome
    exact ⟨AList.mem_keys.mpr (List.mem_filter.mp hkey).1, hpod⟩
  · rintro ⟨hmem, hpod⟩
    have hkey := List.mem_filter.mpr ⟨AList.mem_keys.mp hmem, matchesPattern_heartbeat podIp⟩
    exact ⟨_, List.mem_map_of_mem hkey, podIpOf_eq_some.mpr ⟨rfl, hpod⟩⟩

end PokemonServer
