import PokemonServer.Autoscaling
import PokemonServer.ScanPages

/-!
# GetAllRoomSnapshots page by page

Every key that a page brings is fetched and appended, also a key that an earlier page
has brought. The entries, and with them the number of active rooms, are right as long as
no key comes twice.
-/

namespace PokemonServer
open Interleaving RedisClient

def HasStatusOne (text : JsonText) (value : String) : Prop :=
  ∃ j, text.parse value = .ok j ∧ j.field? "status" = some (.int 1)

def activeKeys (text : JsonText) (s : Store) : Set String :=
  {key | ∃ value, Listed s key value ∧ HasStatusOne text value}

/-- A `status` that is there is an integer that fits an int. -/
def StatusFits (text : JsonText) (value : String) : Prop :=
  ∀ j status, text.parse value = .ok j → j.field? "status" = some status →
    ∃ n : ℤ, status = .int n ∧ -2 ^ 31 ≤ n ∧ n < 2 ^ 31

theorem countsAsActive_iff {text : JsonText} {value : String} (h : StatusFits text value) :
    countsAsActive text value = true ↔ HasStatusOne text value := by
  rw [countsAsActive, HasStatusOne]
  cases hparse : text.parse value with
  | error exn =>
    refine iff_of_false (by simp) ?_
    rintro ⟨j, hj, -⟩
    cases hj
  | ok j =>
    simp only [Except.ok.injEq, exists_eq_left', readsActive, Json.contains, Json.index]
    cases hstatus : j.field? "status" with
    | none => simp
    | some status =>
      obtain ⟨n, rfl, hlow, hhigh⟩ := h j status hparse hstatus
      have hfits : n.bmod (2 ^ 32) = n := Int.bmod_eq_of_le (by omega) (by omega)
      simp only [Json.getInt, Option.isSome_some, Option.getD_some, hfits]
      simp

section pages
variable {pages : ScanPages} {last : ℕ}

theorem visits_collectSnapshot : Visits collectSnapshot
    fun keys st => (st.1 ++ keys.filterMap (snapshotOf st.2), st.2) where
  run _ keys st := visitKeys_run st.2 keys st.1
  issues _ _ _ := trivial

theorem afterPages_collectSnapshot (s : Store) (n : ℕ) :
    afterPages pages (fun keys st => (st.1 ++ keys.filterMap (snapshotOf st.2), st.2)) ([], s) n =
      ((pages.keys n).filterMap (snapshotOf s), s) := by
  induction n with
  | zero => rfl
  | succ n ih => rw [afterPages, ih, ScanPages.keys_succ, List.filterMap_append]

theorem getAllRoomSnapshots_paged (hscan : pages.EndsAt last) (s : Store) {fuel : ℕ}
    (hfuel : last < fuel) : (getAllRoomSnapshots fuel).run (Store.paged pages).exec (s, 0) =
      (some ((pages.keys (last + 1)).filterMap (snapshotOf s)), (s, last + 1)) := by
  have hrun := scanRooms_ends visits_collectSnapshot hscan ([], s) last 0 fuel (Nat.zero_add last)
    hfuel
  rw [afterPages_collectSnapshot s (last + 1)] at hrun
  exact hrun

end pages

theorem map_fst_snapshots (s : Store) (keys : List String) :
    (keys.filterMap (snapshotOf s)).map Prod.fst =
      keys.filter fun key => (snapshotOf s key).isSome := by
  induction keys with
  | nil => rfl
  | cons key keys ih =>
    cases hkey : snapshotOf s key with
    | none => simp [hkey, ih]
    | some pair => simp [hkey, ih, snapshotOf_fst hkey]

theorem nodup_snapshots_iff (s : Store) (keys : List String) :
    (keys.filterMap (snapshotOf s)).Nodup ↔
      ∀ key, (snapshotOf s key).isSome = true → keys.count key ≤ 1 := by
  have hfst : (keys.filterMap (snapshotOf s)).Nodup ↔
      ((keys.filterMap (snapshotOf s)).map Prod.fst).Nodup := by
    refine ⟨fun h => (List.nodup_map_iff_inj_on h).mpr ?_, List.Nodup.of_map Prod.fst⟩
    intro pair hpair pair' hpair' heq
    obtain ⟨key, -, hkey⟩ := List.mem_filterMap.mp hpair
    obtain ⟨key', -, hkey'⟩ := List.mem_filterMap.mp hpair'
    rw [snapshotOf_fst hkey, snapshotOf_fst hkey'] at heq
    subst heq
    exact Option.some.inj (hkey.symm.trans hkey')
  rw [hfst, map_fst_snapshots, List.nodup_iff_count_le_one]
  refine forall_congr' fun key => ?_
  by_cases hkey : (snapshotOf s key).isSome = true
  · have hcount : (keys.filter fun key => (snapshotOf s key).isSome).count key = keys.count key :=
      List.count_filter hkey
    rw [hcount]
    exact ⟨fun h _ => h, fun h => h hkey⟩
  · have hnot : key ∉ keys.filter fun key => (snapshotOf s key).isSome := fun hmem =>
      hkey (List.mem_filter.mp hmem).2
    rw [List.count_eq_zero_of_not_mem hnot]
    exact iff_of_true (Nat.zero_le 1) fun h => absurd h hkey

variable {sim : Simulator} {cfg : ServiceConfig} {pages : ScanPages} {last : ℕ}

/-- Each snapshot is returned once with its value, and the metric is the number of
active rooms. -/
structure CountedOnce (cfg : ServiceConfig) (pages : ScanPages) (server : ServerState sim Store)
    (fuel : ℕ) : Prop where
  snapshots : ∃ pairs, ((getAllRoomSnapshots fuel).run (Store.paged pages).exec
      (server.redis, 0)).1 = some pairs ∧ pairs.Nodup ∧
    ∀ key value, (key, value) ∈ pairs ↔ Listed server.redis key value
  metric : ∃ snapshot, ((GameService.collectMetricsSnapshot cfg fuel).run
      (GameService.exec (Store.paged pages)) ⟨server.rooms, server.engine, (server.redis, 0)⟩).1 =
        some snapshot ∧
    snapshot.globalActiveRooms = (activeKeys cfg.text server.redis).ncard

section counted
variable {s : Store} (hnul : ∀ key ∈ s, isRoomKey key = true → '\x00' ∉ key.toList)
  (hscan : pages.Allowed (fun _ => s) last)
include hscan

theorem mem_keys_of_listed {key value : String} (h : Listed s key value) :
    key ∈ pages.keys (last + 1) := by
  have hmem : key ∈ s := Store.mem_of_lookup h.stored
  exact ScanPages.mem_keys.mpr (hscan.returned key h.matched fun _ _ => hmem)

include hnul

theorem snapshotOf_of_mem_keys {key value : String} (hkey : key ∈ pages.keys (last + 1)) :
    snapshotOf s key = some (key, value) ↔ Listed s key value := by
  have hroom := ScanPages.isRoomKey_of_mem_keys hkey
  obtain ⟨k, hk, hpage⟩ := ScanPages.mem_keys.mp hkey
  obtain ⟨-, -, hmem⟩ := hscan.stored k hk key hpage
  exact snapshotOf_eq_some hroom (hnul key hmem hroom)

theorem mem_snapshots_iff {key value : String} :
    (key, value) ∈ (pages.keys (last + 1)).filterMap (snapshotOf s) ↔ Listed s key value := by
  rw [List.mem_filterMap]
  constructor
  · rintro ⟨key', hmem, hkey'⟩
    obtain rfl : key = key' := snapshotOf_fst hkey'
    exact (snapshotOf_of_mem_keys hnul hscan hmem).mp hkey'
  · intro h
    have hmem := mem_keys_of_listed hscan h
    exact ⟨key, hmem, (snapshotOf_of_mem_keys hnul hscan hmem).mpr h⟩

theorem nodup_snapshots_iff_listed :
    ((pages.keys (last + 1)).filterMap (snapshotOf s)).Nodup ↔
      ∀ key value, Listed s key value → (pages.keys (last + 1)).count key ≤ 1 := by
  rw [nodup_snapshots_iff]
  constructor
  · intro h key value hlisted
    have hkey := (snapshotOf_of_mem_keys hnul hscan (mem_keys_of_listed hscan hlisted)).mpr
      hlisted
    exact h key (by rw [hkey]; rfl)
  · intro h key hkey
    by_cases hmem : key ∈ pages.keys (last + 1)
    · obtain ⟨pair, hpair⟩ := Option.isSome_iff_exists.mp hkey
      obtain ⟨key', value⟩ := pair
      obtain rfl : key' = key := snapshotOf_fst hpair
      exact h key' value ((snapshotOf_of_mem_keys hnul hscan hmem).mp hpair)
    · rw [List.count_eq_zero_of_not_mem hmem]
      exact Nat.zero_le 1

theorem countsKey_iff {text : JsonText}
    (hstatus : ∀ key value, isRoomKey key = true → s.lookup key = some (.string value) →
      StatusFits text value) {key : String} (hkey : key ∈ pages.keys (last + 1)) :
    countsKey text s key = true ↔ key ∈ activeKeys text s := by
  rw [countsKey, Option.any_eq_true]
  constructor
  · rintro ⟨⟨key', value⟩, hpair, hcounts⟩
    obtain rfl : key' = key := snapshotOf_fst hpair
    have hlisted := (snapshotOf_of_mem_keys hnul hscan hkey).mp hpair
    have hfits := hstatus key' value hlisted.matched hlisted.stored
    exact ⟨value, hlisted, (countsAsActive_iff hfits).mp hcounts⟩
  · rintro ⟨value, hlisted, hone⟩
    have hfits := hstatus key value hlisted.matched hlisted.stored
    exact ⟨(key, value), (snapshotOf_of_mem_keys hnul hscan hkey).mpr hlisted,
      (countsAsActive_iff hfits).mpr hone⟩

theorem countP_activeRooms {text : JsonText}
    (hstatus : ∀ key value, isRoomKey key = true → s.lookup key = some (.string value) →
      StatusFits text value)
    (honce : ∀ key value, Listed s key value → (pages.keys (last + 1)).count key ≤ 1) :
    ((pages.keys (last + 1)).filterMap (snapshotOf s)).countP
      (fun entry => countsAsActive text entry.2) = (activeKeys text s).ncard := by
  have hnodup : ((pages.keys (last + 1)).filter (countsKey text s)).Nodup := by
    rw [List.nodup_iff_count_le_one]
    intro key
    by_cases hmem : key ∈ (pages.keys (last + 1)).filter (countsKey text s)
    · obtain ⟨hkey, hcounts⟩ := List.mem_filter.mp hmem
      obtain ⟨value, hlisted, -⟩ := (countsKey_iff hnul hscan hstatus hkey).mp hcounts
      rw [List.count_filter hcounts]
      exact honce key value hlisted
    · rw [List.count_eq_zero_of_not_mem hmem]
      exact Nat.zero_le 1
  have hset : activeKeys text s =
      ((pages.keys (last + 1)).filter (countsKey text s)).toFinset := by
    ext key
    rw [Finset.mem_coe, List.mem_toFinset, List.mem_filter]
    constructor
    · intro hactive
      obtain ⟨value, hlisted, -⟩ := id hactive
      have hkey := mem_keys_of_listed hscan hlisted
      exact ⟨hkey, (countsKey_iff hnul hscan hstatus hkey).mpr hactive⟩
    · intro hkey
      exact (countsKey_iff hnul hscan hstatus hkey.1).mp hkey.2
  rw [countP_filterMap_snapshotOf, List.countP_eq_length_filter, hset, Set.ncard_coe_finset,
    List.toFinset_card_of_nodup hnodup]

end counted

theorem snapshotOf_insert_heartbeat (s : Store) (podIp : String) (value : RedisValue)
    {key : String} (hkey : isRoomKey key = true) :
    snapshotOf (s.insert (heartbeatKey podIp) value) key = snapshotOf s key := by
  obtain ⟨r, rfl⟩ := isRoomKey_iff.mp hkey
  have hcut : cstr (roomKey r) = roomKey (cstr r) := cstr_append (by decide)
  rw [snapshotOf, snapshotOf, hcut,
    AList.lookup_insert_ne (heartbeatKey_ne_roomKey podIp (cstr r)).symm]

/-- Rooms are counted once exactly when SCAN returns the key of no snapshot twice. -/
theorem countedOnce_iff (cfg : ServiceConfig) (server : ServerState sim Store)
    (hnul : ∀ key ∈ server.redis, isRoomKey key = true → '\x00' ∉ key.toList)
    (hstatus : ∀ key value, isRoomKey key = true →
      server.redis.lookup key = some (.string value) → StatusFits cfg.text value)
    (hscan : pages.Allowed (fun _ => server.redis) last) {fuel : ℕ} (hfuel : last < fuel) :
    CountedOnce cfg pages server fuel ↔
      ∀ key value, Listed server.redis key value → (pages.keys (last + 1)).count key ≤ 1 := by
  have hrun := getAllRoomSnapshots_paged hscan.toEndsAt server.redis hfuel
  constructor
  · intro h
    obtain ⟨pairs, hpairs, hnodup, -⟩ := h.snapshots
    rw [hrun] at hpairs
    cases hpairs
    exact (nodup_snapshots_iff_listed hnul hscan).mp hnodup
  · intro h
    refine ⟨⟨_, by rw [hrun], (nodup_snapshots_iff_listed hnul hscan).mpr h, fun key value =>
      mem_snapshots_iff hnul hscan⟩, ?_⟩
    have htouched : (pages.keys (last + 1)).filterMap
        (snapshotOf (server.redis.insert (heartbeatKey cfg.podIp) (.string "1"))) =
          (pages.keys (last + 1)).filterMap (snapshotOf server.redis) :=
      List.filterMap_congr fun key hkey => snapshotOf_insert_heartbeat server.redis cfg.podIp _
        (ScanPages.isRoomKey_of_mem_keys hkey)
    have hpairs := congrArg Prod.fst (getAllRoomSnapshots_paged hscan.toEndsAt
      (server.redis.insert (heartbeatKey cfg.podIp) (.string "1")) hfuel)
    rw [htouched] at hpairs
    obtain ⟨snapshot, hsnapshot, hcount⟩ := GameService.globalActiveRooms_run
      (B := Store.paged pages) cfg ⟨server.rooms, server.engine, (server.redis, 0)⟩ rfl rfl rfl
      hpairs
    refine ⟨snapshot, hsnapshot, ?_⟩
    rw [hcount, countP_activeRooms hnul hscan hstatus h]

namespace Sample

def statusText : String := "\x7b\"ok\":true,\"status\":1\x7d"

def statusConfig : ServiceConfig := ⟨fixedText statusJson statusText, "server-0", "10.0.0.1"⟩

def oneRoom : Store := (∅ : Store).insert (roomKey "r") (.string statusText)

def oneRoomServer : ServerState (fixedSimulator statusJson) Store := GameService.initState 10 oneRoom

def twoPages (first : List String) : ScanPages := fun n _ =>
  if n = 0 then (first, 7) else ([roomKey "r"], 0)

theorem mem_oneRoom {key : String} (h : key ∈ oneRoom) : key = roomKey "r" := by
  rcases (AList.mem_insert _).mp h with hkey | hkey
  · exact hkey
  · exact absurd hkey (AList.notMem_empty _)

theorem twoPages_allowed {first : List String} (hfirst : ∀ key ∈ first, key = roomKey "r") :
    (twoPages first).Allowed (fun _ => oneRoom) 1 where
  ends := rfl
  goes k hk := by
    obtain rfl : k = 0 := by omega
    exact (by decide : (7 : ℕ) ≠ 0)
  stored k hk key hkey := by
    refine ⟨k, le_rfl, ?_⟩
    have hone : key = roomKey "r" := by
      have hmem := (List.mem_filter.mp hkey).1
      rw [twoPages] at hmem
      split at hmem
      · exact hfirst key hmem
      · exact List.mem_singleton.mp hmem
    rw [hone]
    decide
  returned key _ hkey := by
    refine ⟨1, le_rfl, ?_⟩
    obtain rfl := mem_oneRoom (hkey 0 (Nat.zero_le 1))
    exact List.mem_filter.mpr ⟨List.mem_singleton_self _, by decide⟩

theorem oneRoom_lookup {key value : String} (h : oneRoom.lookup key = some (.string value)) :
    value = statusText := by
  have hkey : key = roomKey "r" := mem_oneRoom (Store.mem_of_lookup h)
  rw [hkey, oneRoom, AList.lookup_insert] at h
  cases h
  rfl

end Sample

open Sample in
theorem room_counted_twice :
    (twoPages [roomKey "r"]).Allowed (fun _ => oneRoom) 1 ∧
      (((GameService.collectMetricsSnapshot statusConfig 2).run
          (GameService.exec (Store.paged (twoPages [roomKey "r"])))
          ⟨oneRoomServer.rooms, oneRoomServer.engine, (oneRoom, 0)⟩).1.map
            MetricsSnapshot.globalActiveRooms) = some 2 ∧
      ¬ CountedOnce statusConfig (twoPages [roomKey "r"]) oneRoomServer 2 := by
  refine ⟨twoPages_allowed ?_, ?_, ?_⟩
  · intro key hkey
    exact List.mem_singleton.mp hkey
  · decide +kernel
  · intro h
    obtain ⟨pairs, hpairs, hnodup, -⟩ := h.snapshots
    have htwice : ((getAllRoomSnapshots 2).run (Store.paged (twoPages [roomKey "r"])).exec
        (oneRoom, 0)).1 = some [(roomKey "r", statusText), (roomKey "r", statusText)] := by
      decide +kernel
    obtain rfl := Option.some.inj (htwice.symm.trans hpairs)
    exact absurd hnodup (by decide)

open Sample in
theorem room_counted_once : CountedOnce statusConfig (twoPages []) oneRoomServer 2 := by
  refine (countedOnce_iff statusConfig oneRoomServer ?_ ?_ (twoPages_allowed ?_)
    (by decide : 1 < 2)).mpr ?_
  · intro key hkey _
    rw [mem_oneRoom hkey]
    decide
  · intro key value _ hlookup j status hparse hstatus
    obtain rfl := oneRoom_lookup hlookup
    obtain rfl : statusJson = j := by
      simpa [statusConfig, fixedText] using hparse
    obtain rfl : Json.int 1 = status := by
      simpa [statusJson, Json.field?, List.lookup] using hstatus
    exact ⟨1, rfl, by decide, by decide⟩
  · intro key hkey
    cases hkey
  · intro key value _
    have hkeys : (twoPages []).keys 2 = [roomKey "r"] := by decide +kernel
    rw [hkeys]
    exact List.nodup_iff_count_le_one.mp (List.nodup_singleton _) key

end PokemonServer
