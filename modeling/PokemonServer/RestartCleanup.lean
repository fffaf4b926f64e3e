import PokemonServer.Autoscaling
import PokemonServer.CleanupRaces
import PokemonServer.SessionHistory

/-!
# The cleanup of a pod that starts again

Start calls DeleteRoomsForServer with the pod's own address, to remove what the pod
left behind when it crashed. What a pod leaves behind is JSON of the simulator, stored
as it is. The cleanup recognises it exactly when that JSON has a `server_id` equal to
the address.
-/

namespace PokemonServer
open Interleaving RedisClient

def Written (r : String) (log : ServerLog) : Prop :=
  ∃ e ∈ log, ∃ data ex, e.op = .redis (.command (.set (roomKey r) data ex))

def HoldsReturned (sim : Simulator) (text : JsonText) (redis : Store) (r : String) : Prop :=
  redis.lookup (roomKey r) = none ∨
    ∃ j, sim.Returns j ∧ redis.lookup (roomKey r) = some (.string (text.dump j))

variable {sim : Simulator} {cfg : ServiceConfig} {scanPage : ScanPolicy} {r : String}

theorem HoldsReturned.insert {redis : Store} (h : HoldsReturned sim cfg.text redis r) {q : String}
    {j : Json} (hj : sim.Returns j) :
    HoldsReturned sim cfg.text (redis.insert (roomKey q) (.string (cfg.text.dump j))) r := by
  by_cases hq : roomKey r = roomKey q
  · exact Or.inr ⟨j, hj, by rw [hq, AList.lookup_insert]⟩
  · rw [HoldsReturned, AList.lookup_insert_ne hq]
    exact h

theorem holdsReturned_exec {op : ServerOp} {req : Request} {s : ServerState sim Store}
    (hop : GameService.Issued cfg sim.Returns req op)
    (h : HoldsReturned sim cfg.text s.redis r) :
    HoldsReturned sim cfg.text (GameService.exec (Store.backend scanPage) op s).2.redis r := by
  cases hop with
  | writeState hj | writeTurn hj => exact h.insert hj
  | deleteRoomData =>
    show HoldsReturned sim cfg.text (Store.delKeys _ s.redis).2 r
    rw [HoldsReturned, Store.lookup_delKeys]
    split
    · exact Or.inl rfl
    · exact h
  | touchNodeHeartbeat =>
    show HoldsReturned sim cfg.text (s.redis.insert _ _) r
    rw [HoldsReturned, AList.lookup_insert_ne (heartbeatKey_ne_roomKey cfg.podIp r).symm]
    exact h
  | _ => exact h

theorem holdsReturned_of_write {key data : String} {ex : ℤ} {req : Request}
    {s : ServerState sim Store}
    (hop : GameService.Issued cfg sim.Returns req (.redis (.command (.set key data ex))))
    (hkey : key = roomKey r) :
    HoldsReturned sim cfg.text (s.redis.insert key (.string data)) r := by
  cases hop with
  | writeState hj | writeTurn hj =>
    exact Or.inr ⟨_, hj, by rw [hkey, AList.lookup_insert]⟩
  | touchNodeHeartbeat => exact absurd hkey (heartbeatKey_ne_roomKey _ _)

theorem holdsReturned_of_written {maxRooms : ℕ} {redis : Store}
    {c : Config (ServerState sim Store) Request ServerOp ServerOp.Res Outcome}
    (h : (GameService.system sim cfg (Store.backend scanPage)).Reachable (fun _ _ => True)
      (GameService.initState maxRooms redis) c) (hwritten : Written r c.log) :
    HoldsReturned sim cfg.text c.shared.redis r := by
  induction h with
  | init =>
    obtain ⟨e, he, -⟩ := hwritten
    cases he
  | @step c c' a hreach _ hfire ih =>
    cases a with
    | start req =>
      cases hfire
      exact ih hwritten
    | run t =>
      obtain ⟨req, op, next, hpool, -, rfl⟩ := System.fire_run hfire
      have hop := (GameService.issued_of_reachable (fun _ => id) hreach).2 t req op ⟨next, hpool⟩
      obtain ⟨e, he, data, ex, hset⟩ := hwritten
      rcases List.mem_cons.mp he with rfl | he
      · cases hset
        exact holdsReturned_of_write hop rfl
      · exact holdsReturned_exec hop (ih ⟨e, he, data, ex, hset⟩)

/-- The JSON names the pod, and the key is visited: that of room "command" is taken for
a command key, unless a stored key is cut to it. -/
def Recognised (cfg : ServiceConfig) (redis : Store) (r : String) (j : Json) : Prop :=
  ownedBy cfg.podIp j = true ∧ (r = "command" → ∃ key ∈ redis, ReadsAs r key)

theorem swept_iff_recognised {redis : Store} {j : Json} (hr : PlainId r)
    (hround : cfg.text.parse (cfg.text.dump j) = .ok j)
    (hlookup : redis.lookup (roomKey r) = some (.string (cfg.text.dump j))) :
    Swept cfg.text cfg.podIp redis r ↔ Recognised cfg redis r j := by
  have howned : ownedValue cfg.text cfg.podIp (cfg.text.dump j) = ownedBy cfg.podIp j := by
    rw [ownedValue, hround]
  constructor
  · rintro ⟨value, key, hvalue, hvalueOwned, hkey, hreads⟩
    obtain rfl : cfg.text.dump j = value := by
      rw [hlookup] at hvalue
      cases hvalue
      rfl
    exact ⟨howned ▸ hvalueOwned, fun _ => ⟨key, hkey, hreads⟩⟩
  · rintro ⟨hj, hcommand⟩
    have hreads : ∃ key ∈ redis, ReadsAs r key := by
      by_cases hrc : r = "command"
      · exact hcommand hrc
      · have hmem : roomKey r ∈ redis := Store.mem_of_lookup hlookup
        have hnul : '\x00' ∉ (roomKey r).toList := by
          simp [roomKey, hr.1]
        exact ⟨roomKey r, hmem, isRoomKey_iff.mpr ⟨r, rfl⟩,
          Bool.eq_false_iff.mpr fun hkey => hrc ((isCommandKey_roomKey hr.2).mp hkey),
          cstr_of_noNul hnul⟩
    obtain ⟨key, hkey, hreads⟩ := hreads
    exact ⟨_, key, hlookup, howned.trans hj, hkey, hreads⟩

/-- Start's call of DeleteRoomsForServer, with its result and the store after it. -/
def startCleanup (cfg : ServiceConfig) (scanPage : ScanPolicy) (fuel : ℕ) (redis : Store) :
    Option Bool × Store :=
  (deleteRoomsForServer cfg.text cfg.podIp fuel).run (Store.backend scanPage).exec redis

/-- After a crash at any point of a run, the cleanup of the next start comes to its
end, and no room that the run stored remains exactly when every one that is still
stored holds JSON by which it is recognised. -/
theorem restartCleanup_removesRooms_iff {maxRooms : ℕ} {redis : Store}
    (hround : ∀ j, sim.Returns j → cfg.text.parse (cfg.text.dump j) = .ok j)
    (hscan : ScansShrinking scanPage)
    {c : Config (ServerState sim Store) Request ServerOp ServerOp.Res Outcome}
    (h : (GameService.system sim cfg (Store.backend scanPage)).Reachable (fun _ _ => True)
      (GameService.initState maxRooms redis) c) :
    ∃ enough, ∀ fuel ≥ enough, (startCleanup cfg scanPage fuel c.shared.redis).1.isSome ∧
      ((∀ r, PlainId r → Written r c.log →
          roomKey r ∉ (startCleanup cfg scanPage fuel c.shared.redis).2) ↔
        ∀ r j, PlainId r → Written r c.log → sim.Returns j →
          c.shared.redis.lookup (roomKey r) = some (.string (cfg.text.dump j)) →
            Recognised cfg c.shared.redis r j) := by
  obtain ⟨enough, hrun⟩ :=
    deleteRoomsForServer_run hscan cfg.text cfg.podIp c.shared.redis
  refine ⟨enough, fun fuel hfuel => ?_⟩
  obtain ⟨anyDeleted, after, heq, hafter⟩ := hrun fuel hfuel
  have hcleanup : startCleanup cfg scanPage fuel c.shared.redis = (some anyDeleted, after) := heq
  rw [hcleanup]
  refine ⟨rfl, ?_, ?_⟩
  · intro hgone r j hr hwritten hj hlookup
    have hmem : roomKey r ∈ c.shared.redis := Store.mem_of_lookup hlookup
    by_contra hnot
    refine hgone r hr hwritten ((hafter r hr).mpr ⟨hmem, fun hswept => hnot ?_⟩)
    exact (swept_iff_recognised hr (hround j hj) hlookup).mp hswept
  · intro hrecognised r hr hwritten hmem
    obtain ⟨hstored, hkept⟩ := (hafter r hr).mp hmem
    rcases holdsReturned_of_written h hwritten with hnone | ⟨j, hj, hlookup⟩
    · exact absurd hstored (AList.lookup_eq_none.mp hnone)
    · exact hkept ((swept_iff_recognised hr (hround j hj) hlookup).mpr
        (hrecognised r j hr hwritten hj hlookup))

def writesTest (r : String) : ServerOp → Bool
  | .redis (.command (.set key _ _)) => key == roomKey r
  | _ => false

theorem written_of_test {log : ServerLog} (h : (log.any fun e => writesTest r e.op) = true) :
    Written r log := by
  obtain ⟨e, he, htest⟩ := List.any_eq_true.mp h
  refine ⟨e, he, ?_⟩
  revert htest
  cases e.op with
  | redis op =>
    cases op with
    | command cmd =>
      cases cmd with
      | set key data ex =>
        intro htest
        obtain rfl : key = roomKey r := by simpa [writesTest] using htest
        exact ⟨data, ex, rfl⟩
      | _ => simp [writesTest]
    | isConnected => simp [writesTest]
  | _ => simp [writesTest]

namespace Sample

theorem scanAll_scansShrinking : ScansShrinking scanAll := by
  intro stores cursors hzero hnext _
  refine ⟨0, hnext 0, by simp, ?_, ?_⟩
  · intro k hk key hkey
    rw [Nat.le_zero.mp hk] at hkey
    exact AList.mem_keys.mpr hkey
  · intro key hkey
    exact ⟨0, le_rfl, AList.mem_keys.mp (hkey 0 le_rfl)⟩

def fixedConfig (battle : Json) (dumped : String) : ServiceConfig :=
  ⟨fixedText battle dumped, "server-0", "10.0.0.1"⟩

def crashWhileCreating : List (Action Request) :=
  begin (create "r") ++ calls 0 7 ++ begin (command "r") ++ calls 1 4 ++ begin (create "s") ++
    calls 2 4

end Sample

open Sample in
theorem restartCleanup_leaves_room :
    (∀ j, (fixedSimulator battleJson).Returns j →
      (fixedConfig battleJson (turnText 0)).text.parse
        ((fixedConfig battleJson (turnText 0)).text.dump j) = .ok j) ∧
      ScansShrinking scanAll ∧ PlainId "r" ∧
      ∃ c, (GameService.system (fixedSimulator battleJson) (fixedConfig battleJson (turnText 0))
          (Store.backend scanAll)).Reachable (fun _ _ => True) (GameService.initState 10 ∅) c ∧
        Written "r" c.log ∧
        (startCleanup (fixedConfig battleJson (turnText 0)) scanAll 1 c.shared.redis).1 =
          some false ∧
        roomKey "r" ∈
          (startCleanup (fixedConfig battleJson (turnText 0)) scanAll 1 c.shared.redis).2 := by
  obtain ⟨c, hreach, hcheck⟩ := System.exists_reachable_of_schedule
    (S := GameService.system (fixedSimulator battleJson) (fixedConfig battleJson (turnText 0))
      (Store.backend scanAll)) (s := GameService.initState 10 ∅) crashWhileCreating
    (fun c => (c.log.any fun e => writesTest "r" e.op) &&
      decide ((startCleanup (fixedConfig battleJson (turnText 0)) scanAll 1 c.shared.redis).1 =
        some false) &&
      decide (roomKey "r" ∈
        (startCleanup (fixedConfig battleJson (turnText 0)) scanAll 1 c.shared.redis).2))
    (by decide +kernel)
  simp only [Bool.and_eq_true, decide_eq_true_eq] at hcheck
  exact ⟨fun j => fixedText_round _, scanAll_scansShrinking, by decide, c, hreach,
    written_of_test hcheck.1.1, hcheck.1.2, hcheck.2⟩

open Sample in
theorem restartCleanup_removesRooms_of_owner :
    ∃ c, (GameService.system (fixedSimulator (ownerJson "10.0.0.1"))
        (fixedConfig (ownerJson "10.0.0.1") (ownerText "10.0.0.1"))
        (Store.backend scanAll)).Reachable (fun _ _ => True) (GameService.initState 10 ∅) c ∧
      Written "r" c.log ∧ roomKey "r" ∈ c.shared.redis ∧
      ∃ enough, ∀ fuel ≥ enough,
        (startCleanup (fixedConfig (ownerJson "10.0.0.1") (ownerText "10.0.0.1")) scanAll fuel
          c.shared.redis).1.isSome ∧
        roomKey "r" ∉ (startCleanup (fixedConfig (ownerJson "10.0.0.1") (ownerText "10.0.0.1"))
          scanAll fuel c.shared.redis).2 := by
  obtain ⟨c, hreach, hcheck⟩ := System.exists_reachable_of_schedule
    (S := GameService.system (fixedSimulator (ownerJson "10.0.0.1"))
      (fixedConfig (ownerJson "10.0.0.1") (ownerText "10.0.0.1")) (Store.backend scanAll))
    (s := GameService.initState 10 ∅) crashWhileCreating
    (fun c => (c.log.any fun e => writesTest "r" e.op) &&
      decide (roomKey "r" ∈ c.shared.redis ∧ c.shared.redis.lookup (roomKey "command") = none))
    (by decide +kernel)
  simp only [Bool.and_eq_true, decide_eq_true_eq] at hcheck
  obtain ⟨hwritten, hstored, hnone⟩ := hcheck
  have hr := written_of_test hwritten
  obtain ⟨enough, hcleanup⟩ :=
    restartCleanup_removesRooms_iff (fun j => fixedText_round _) scanAll_scansShrinking hreach
  refine ⟨c, hreach, hr, hstored, enough, fun fuel hfuel => ?_⟩
  obtain ⟨hends, hiff⟩ := hcleanup fuel hfuel
  refine ⟨hends, hiff.mpr (fun q j _ _ hj hlookup => ?_) "r" (by decide) hr⟩
  rw [fixedSimulator_returns hj]
  refine ⟨by decide, ?_⟩
  rintro rfl
  rw [hnone] at hlookup
  cases hlookup

end PokemonServer
