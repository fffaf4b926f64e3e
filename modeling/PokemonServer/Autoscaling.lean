import PokemonServer.Metrics
import PokemonServer.ObservedHandlers
import PokemonServer.SnapshotScan

/-!
# The number of active rooms that the autoscaler sees

Several pods serve requests on one Redis. CreateRoom and SendCommand store the JSON
that the simulator returns as it is; CollectMetricsSnapshot counts the stored rooms
whose JSON has a `status` of 1. The two agree on the number of live rooms exactly
when the JSON returned last for each live room has that field.
-/

namespace PokemonServer
open Interleaving RedisClient

variable {sim : Simulator} {cfg : ServiceConfig} {scanPage : ScanPolicy}

structure Stored (text : JsonText) (redis : Store) (last : LastJson) : Prop where
  lookup : ∀ r, PlainId r →
    redis.lookup (roomKey r) = (last r).map fun j => .string (text.dump j)
  plain : ∀ key ∈ redis, isRoomKey key = true → ∃ r, PlainId r ∧ key = roomKey r

namespace Stored
variable {text : JsonText} {redis : Store} {last : LastJson}

theorem set (h : Stored text redis last) {q : String} (hq : PlainId q) (j : Json) :
    Stored text (redis.insert (roomKey q) (.string (text.dump j)))
      (Function.update last q (some j)) where
  lookup r hr := by
    by_cases hrq : r = q
    · subst hrq
      rw [AList.lookup_insert, Function.update_self]
      rfl
    · have hne : roomKey r ≠ roomKey q := fun heq => hrq (roomKey_injective heq)
      rw [AList.lookup_insert_ne hne, Function.update_of_ne hrq]
      exact h.lookup r hr
  plain key hkey hroom := by
    rcases (AList.mem_insert _).mp hkey with rfl | hkey
    · exact ⟨q, hq, rfl⟩
    · exact h.plain key hkey hroom

theorem delete (h : Stored text redis last) {q : String} (hq : PlainId q) :
    Stored text (Store.delKeys (deletedKeys q) redis).2 (Function.update last q none) where
  lookup r hr := by
    rw [Store.lookup_delKeys]
    by_cases hrq : r = q
    · rw [if_pos ((roomKey_mem_deletedKeys hr hq).mpr hrq), hrq, Function.update_self]
      rfl
    · have hnot : roomKey r ∉ deletedKeys q := fun hmem =>
        hrq ((roomKey_mem_deletedKeys hr hq).mp hmem)
      rw [if_neg hnot, Function.update_of_ne hrq]
      exact h.lookup r hr
  plain key hkey hroom := h.plain key (Store.mem_delKeys.mp hkey).2 hroom

theorem touch (h : Stored text redis last) (podIp : String) (value : RedisValue) :
    Stored text (redis.insert (heartbeatKey podIp) value) last where
  lookup r hr := by
    rw [AList.lookup_insert_ne (heartbeatKey_ne_roomKey podIp r).symm]
    exact h.lookup r hr
  plain key hkey hroom := by
    rcases (AList.mem_insert _).mp hkey with rfl | hkey
    · rw [isRoomKey_heartbeatKey] at hroom
      cases hroom
    · exact h.plain key hkey hroom

theorem snapshotOf_roomKey (h : Stored text redis last) {r : String} (hr : PlainId r) :
    snapshotOf redis (roomKey r) =
      if r = "command" then none else (last r).map fun j => (roomKey r, text.dump j) := by
  have hcstr : cstr (roomKey r) = roomKey r := by
    refine cstr_of_noNul ?_
    simp [roomKey, hr.1]
  rw [snapshotOf, hcstr, h.lookup r hr]
  by_cases hcommand : r = "command"
  · rw [if_pos ((isCommandKey_roomKey hr.2).mpr hcommand), if_pos hcommand]
  · rw [if_neg fun hkey => hcommand ((isCommandKey_roomKey hr.2).mp hkey), if_neg hcommand]
    cases last r <;> rfl

end Stored

/-- A room whose snapshot is counted: its key is not taken for a command key, and
the JSON returned last has a `status` that reads as 1. -/
def Counted (last : LastJson) (r : String) : Prop :=
  r ≠ "command" ∧ (last r).any readsActive = true

instance (last : LastJson) (r : String) : Decidable (Counted last r) :=
  inferInstanceAs (Decidable (_ ∧ _))

section count
variable {text : JsonText} {redis : Store} {last : LastJson}

def countsKey (text : JsonText) (redis : Store) (key : String) : Bool :=
  (snapshotOf redis key).any fun entry => countsAsActive text entry.2

theorem countP_filterMap_snapshotOf (text : JsonText) (redis : Store) (keys : List String) :
    (keys.filterMap (snapshotOf redis)).countP (fun entry => countsAsActive text entry.2) =
      keys.countP (countsKey text redis) := by
  rw [List.countP_filterMap]
  refine List.countP_congr fun key _ => ?_
  rw [countsKey]
  cases snapshotOf redis key <;> rfl

variable (h : Stored text redis last)
  (hround : ∀ r j, last r = some j → text.parse (text.dump j) = .ok j)
include h hround

theorem countsKey_roomKey {r : String} (hr : PlainId r) :
    countsKey text redis (roomKey r) = true ↔ Counted last r := by
  rw [countsKey, h.snapshotOf_roomKey hr, Counted]
  by_cases hcommand : r = "command"
  · simp [hcommand]
  · cases hlast : last r with
    | none => simp
    | some j => simp [hcommand, countsAsActive, hround r j hlast]

theorem countedKeys_eq {rooms : Finset String} (hplain : ∀ r ∈ rooms, PlainId r)
    (hrooms : ∀ r j, last r = some j → r ∈ rooms) :
    ((redis.keys.filter isRoomKey).filter (countsKey text redis)).toFinset =
      (rooms.filter (Counted last)).image roomKey := by
  ext key
  simp only [List.mem_toFinset, List.mem_filter, Finset.mem_image, Finset.mem_filter]
  constructor
  · rintro ⟨⟨hkey, hroom⟩, hcounts⟩
    obtain ⟨r, hr, rfl⟩ := h.plain key (AList.mem_keys.mpr hkey) hroom
    have hcounted := (countsKey_roomKey h hround hr).mp hcounts
    obtain ⟨j, hj, -⟩ := (Option.any_eq_true _ _).mp hcounted.2
    exact ⟨r, ⟨hrooms r j hj, hcounted⟩, rfl⟩
  · rintro ⟨r, ⟨hmem, hcounted⟩, rfl⟩
    have hr := hplain r hmem
    obtain ⟨j, hj, -⟩ := (Option.any_eq_true _ _).mp hcounted.2
    have hlookup : redis.lookup (roomKey r) = some (.string (text.dump j)) := by
      rw [h.lookup r hr, hj]
      rfl
    have hkey : roomKey r ∈ redis := Store.mem_of_lookup hlookup
    exact ⟨⟨AList.mem_keys.mp hkey, isRoomKey_iff.mpr ⟨r, rfl⟩⟩,
      (countsKey_roomKey h hround hr).mpr hcounted⟩

theorem countP_snapshots {keys : List String}
    (hperm : (keys.filter isRoomKey).Perm (redis.keys.filter isRoomKey)) {rooms : Finset String}
    (hplain : ∀ r ∈ rooms, PlainId r) (hrooms : ∀ r j, last r = some j → r ∈ rooms) :
    ((keys.filter isRoomKey).filterMap (snapshotOf redis)).countP
        (fun entry => countsAsActive text entry.2) = (rooms.filter (Counted last)).card := by
  have hnodup : ((redis.keys.filter isRoomKey).filter (countsKey text redis)).Nodup :=
    (redis.keys_nodup.filter _).filter _
  calc ((keys.filter isRoomKey).filterMap (snapshotOf redis)).countP
        (fun entry => countsAsActive text entry.2)
      = ((redis.keys.filter isRoomKey).filterMap (snapshotOf redis)).countP
        (fun entry => countsAsActive text entry.2) := (hperm.filterMap _).countP_eq _
    _ = (redis.keys.filter isRoomKey).countP (countsKey text redis) :=
        countP_filterMap_snapshotOf text redis _
    _ = ((redis.keys.filter isRoomKey).filter (countsKey text redis)).length :=
        List.countP_eq_length_filter
    _ = ((rooms.filter (Counted last)).image roomKey).card := by
        rw [← List.toFinset_card_of_nodup hnodup, countedKeys_eq h hround hplain hrooms]
    _ = (rooms.filter (Counted last)).card :=
        Finset.card_image_of_injective _ roomKey_injective

end count

structure Fleet (ι : Type) where
  text : JsonText
  serverId : ι → String
  podIp : ι → String

def Fleet.config {ι : Type} (F : Fleet ι) (i : ι) : ServiceConfig :=
  ⟨F.text, F.serverId i, F.podIp i⟩

/-- Pods on one Redis. `last` is what an observer of the simulator has seen; no
program reads it. -/
structure Cluster (ι : Type) (sim : Simulator) where
  rooms : ι → RoomManager
  engine : ι → BattleEngine sim
  redis : Store
  last : LastJson

namespace Cluster
variable {ι : Type}

def init (maxRooms : ι → ℕ) (redis : Store) : Cluster ι sim :=
  ⟨fun i => RoomManager.init (maxRooms i), fun _ => BattleEngine.init, redis, fun _ => none⟩

def pod (k : Cluster ι sim) (i : ι) : ServerState sim Store := ⟨k.rooms i, k.engine i, k.redis⟩

structure Life (F : Fleet ι) (k : Cluster ι sim) : Prop where
  stored : Stored F.text k.redis k.last
  returned : ∀ r j, k.last r = some j → sim.Returns j
  live : ∀ r j, k.last r = some j → ∃ i, r ∈ (k.rooms i).rooms
  plain : ∀ i r, r ∈ (k.rooms i).rooms → PlainId r
  once : ∀ i j r, r ∈ (k.rooms i).rooms → r ∈ (k.rooms j).rooms → i = j

theorem Life.init {F : Fleet ι} {maxRooms : ι → ℕ} {redis : Store}
    (hredis : ∀ key ∈ redis, isRoomKey key = false) :
    Life F (init maxRooms redis : Cluster ι sim) where
  stored := by
    constructor
    · intro r _
      refine AList.lookup_eq_none.mpr fun hmem => ?_
      have hkey := hredis _ hmem
      rw [isRoomKey_iff.mpr ⟨r, rfl⟩] at hkey
      cases hkey
    · intro key hkey hroom
      rw [hredis key hkey] at hroom
      cases hroom
  returned r j hr := by cases hr
  live r j hr := by cases hr
  plain i r hr := absurd hr Finmap.notMem_empty
  once i j r hr := absurd hr Finmap.notMem_empty

section serve
variable [DecidableEq ι]

def after (k : Cluster ι sim) (i : ι) (s : ServerState sim Store) (last : LastJson) :
    Cluster ι sim :=
  ⟨Function.update k.rooms i s.rooms, Function.update k.engine i s.engine, s.redis, last⟩

def serve (F : Fleet ι) (scanPage : ScanPolicy) (k : Cluster ι sim) (i : ι) (request : Request) :
    Cluster ι sim :=
  let p := GameService.handle (F.config i) request
  k.after i (p.run (GameService.exec (Store.backend scanPage)) (k.pod i)).2
    (p.run (watch scanPage) (k.pod i, k.last)).2.2

/-- Plain room ids, and a room is created on a pod only while it is on no other. -/
structure Admissible (k : Cluster ι sim) (i : ι) (request : Request) : Prop where
  plain : PlainId request.roomId
  distinct : ∀ q, request = .createRoom q → ∀ j, j ≠ i → q.roomId ∉ (k.rooms j).rooms

inductive Reachable (F : Fleet ι) (scanPage : ScanPolicy) (maxRooms : ι → ℕ) (redis : Store) :
    Cluster ι sim → Prop
  | init : Reachable F scanPage maxRooms redis (init maxRooms redis)
  | step {k : Cluster ι sim} {i : ι} {request : Request} :
      Reachable F scanPage maxRooms redis k → k.Admissible i request →
      Reachable F scanPage maxRooms redis (k.serve F scanPage i request)

theorem mem_after {k : Cluster ι sim} {i j : ι} {s : ServerState sim Store} {last : LastJson}
    {r : String} : r ∈ ((k.after i s last).rooms j).rooms ↔
      j = i ∧ r ∈ s.rooms.rooms ∨ j ≠ i ∧ r ∈ (k.rooms j).rooms := by
  by_cases hj : j = i
  · subst hj
    simp [after]
  · simp [after, hj]

variable {F : Fleet ι} {k : Cluster ι sim} {i : ι} {s' : ServerState sim Store} {last' : LastJson}
  {request : Request}

theorem returned_update {last : LastJson} (h : ∀ r j, last r = some j → sim.Returns j) {q : String}
    {json : Json} (hjson : sim.Returns json) :
    ∀ r j, Function.update last q (some json) r = some j → sim.Returns j := by
  intro r j hr
  by_cases hrq : r = q
  · rw [hrq, Function.update_self] at hr
    cases hr
    exact hjson
  · rw [Function.update_of_ne hrq] at hr
    exact h r j hr

namespace Life

theorem sameRooms (h : Life F k) (hrooms : s'.rooms.rooms = (k.pod i).rooms.rooms)
    (hstored : Stored F.text s'.redis last')
    (hreturned : ∀ r j, last' r = some j → sim.Returns j)
    (hlive : ∀ r j, last' r = some j → ∃ i, r ∈ (k.rooms i).rooms) :
    Life F (k.after i s' last') := by
  have hmem : ∀ j r, r ∈ ((k.after i s' last').rooms j).rooms ↔ r ∈ (k.rooms j).rooms := by
    intro j r
    rw [mem_after, hrooms]
    by_cases hj : j = i
    · subst hj
      simp [pod]
    · simp [hj]
  refine ⟨hstored, hreturned, ?_, ?_, ?_⟩
  · intro r j hr
    obtain ⟨l, hl⟩ := hlive r j hr
    exact ⟨l, (hmem l r).mpr hl⟩
  · intro j r hr
    exact h.plain j r ((hmem j r).mp hr)
  · intro j l r hj hl
    exact h.once j l r ((hmem j r).mp hj) ((hmem l r).mp hl)

theorem addRoom (h : Life F k) {q : String} (hq : PlainId q) {room : Room}
    (hdistinct : ∀ j, j ≠ i → q ∉ (k.rooms j).rooms)
    (hrooms : s'.rooms.rooms = (k.pod i).rooms.rooms.insert q room)
    (hstored : Stored F.text s'.redis last')
    (hreturned : ∀ r j, last' r = some j → sim.Returns j)
    (hlive : ∀ r j, last' r = some j → r = q ∨ k.last r = some j) :
    Life F (k.after i s' last') := by
  have hmem : ∀ j r, r ∈ ((k.after i s' last').rooms j).rooms ↔
      j = i ∧ r = q ∨ r ∈ (k.rooms j).rooms := by
    intro j r
    rw [mem_after, hrooms, Finmap.mem_insert]
    by_cases hj : j = i
    · subst hj
      simp [pod]
    · simp [hj]
  refine ⟨hstored, hreturned, ?_, ?_, ?_⟩
  · intro r j hr
    rcases hlive r j hr with rfl | hr
    · exact ⟨i, (hmem i r).mpr (Or.inl ⟨rfl, rfl⟩)⟩
    · obtain ⟨l, hl⟩ := h.live r j hr
      exact ⟨l, (hmem l r).mpr (Or.inr hl)⟩
  · intro j r hr
    rcases (hmem j r).mp hr with ⟨-, rfl⟩ | hr
    · exact hq
    · exact h.plain j r hr
  · intro j l r hj hl
    have honly : ∀ j, q ∈ (k.rooms j).rooms → j = i := by
      intro j hj
      by_contra hne
      exact hdistinct j hne hj
    rcases (hmem j r).mp hj with ⟨hji, hjr⟩ | hj' <;> rcases (hmem l r).mp hl with ⟨hli, hlr⟩ | hl'
    · rw [hji, hli]
    · rw [hji, honly l (hjr ▸ hl')]
    · rw [hli, honly j (hlr ▸ hj')]
    · exact h.once j l r hj' hl'

theorem removeRoom (h : Life F k) {q : String} (hq : PlainId q)
    (hrooms : s'.rooms.rooms = (k.pod i).rooms.rooms.erase q)
    (hredis : s'.redis = (Store.delKeys (deletedKeys q) k.redis).2) :
    Life F (k.after i s' (Function.update k.last q none)) := by
  have hmem : ∀ j r, r ∈ ((k.after i s' (Function.update k.last q none)).rooms j).rooms →
      r ∈ (k.rooms j).rooms := by
    intro j r hr
    rcases mem_after.mp hr with ⟨rfl, hmem⟩ | ⟨-, hmem⟩
    · rw [hrooms] at hmem
      exact (Finmap.mem_erase.mp hmem).2
    · exact hmem
  have hother : ∀ r j, Function.update k.last q none r = some j → r ≠ q ∧ k.last r = some j := by
    intro r j hr
    by_cases hrq : r = q
    · rw [hrq, Function.update_self] at hr
      cases hr
    · rw [Function.update_of_ne hrq] at hr
      exact ⟨hrq, hr⟩
  refine ⟨?_, ?_, ?_, ?_, ?_⟩
  · show Stored F.text s'.redis _
    rw [hredis]
    exact h.stored.delete hq
  · intro r j hr
    exact h.returned r j (hother r j hr).2
  · intro r j hr
    obtain ⟨hrq, hr⟩ := hother r j hr
    obtain ⟨l, hl⟩ := h.live r j hr
    refine ⟨l, mem_after.mpr ?_⟩
    by_cases hli : l = i
    · subst hli
      refine Or.inl ⟨rfl, ?_⟩
      rw [hrooms, Finmap.mem_erase]
      exact ⟨hrq, hl⟩
    · exact Or.inr ⟨hli, hl⟩
  · intro j r hr
    exact h.plain j r (hmem j r hr)
  · intro j l r hj hl
    exact h.once j l r (hmem j r hj) (hmem l r hl)

theorem step (h : Life F k) (hadm : k.Admissible i request)
    (hstep : PodStep (F.config i) (k.pod i) k.last request s' last') :
    Life F (k.after i s' last') := by
  cases hstep with
  | kept hrooms hredis =>
    have hstored : Stored F.text s'.redis k.last := by
      rw [hredis]
      exact h.stored
    exact h.sameRooms hrooms hstored h.returned h.live
  | @undone q hnot =>
    have hnone : k.last q.roomId = none := by
      by_contra hsome
      obtain ⟨j, hj⟩ := Option.ne_none_iff_exists'.mp hsome
      obtain ⟨l, hl⟩ := h.live _ _ hj
      by_cases hli : l = i
      · exact hnot (hli ▸ hl)
      · exact hadm.distinct q rfl l hli hl
    have hlast : Function.update k.last q.roomId none = k.last := by
      rw [← hnone, Function.update_eq_self]
    rw [hlast]
    exact h.sameRooms rfl h.stored h.returned h.live
  | @inserted q room _ hnot hrooms hredis =>
    have hstored : Stored F.text s'.redis k.last := by
      rw [hredis]
      exact h.stored
    exact h.addRoom hadm.plain (hadm.distinct q rfl) hrooms hstored h.returned
      fun r j hr => Or.inr hr
  | @created q room state _ hnot hrooms hreturns hredis =>
    have hstored : Stored F.text s'.redis (Function.update k.last q.roomId (some state)) := by
      rw [hredis]
      exact h.stored.set hadm.plain state
    refine h.addRoom hadm.plain (hadm.distinct q rfl) hrooms hstored ?_ ?_
    · exact returned_update h.returned hreturns
    · intro r j hr
      by_cases hrq : r = q.roomId
      · exact Or.inl hrq
      · rw [Function.update_of_ne hrq] at hr
        exact Or.inr hr
  | @turned q response _ hmem hrooms hreturns hredis =>
    have hstored : Stored F.text s'.redis (Function.update k.last q.roomId (some response)) := by
      rw [hredis]
      exact h.stored.set hadm.plain response
    refine h.sameRooms hrooms hstored (returned_update h.returned hreturns) ?_
    intro r j hr
    by_cases hrq : r = q.roomId
    · exact ⟨i, hrq ▸ hmem⟩
    · rw [Function.update_of_ne hrq] at hr
      exact h.live r j hr
  | @destroyed q _ hmem hrooms hredis => exact h.removeRoom hadm.plain hrooms hredis
  | touched hrooms hredis =>
    have hstored : Stored F.text s'.redis k.last := by
      rw [hredis]
      exact h.stored.touch _ _
    exact h.sameRooms hrooms hstored h.returned h.live

theorem of_reachable {maxRooms : ι → ℕ} {redis : Store}
    (hredis : ∀ key ∈ redis, isRoomKey key = false)
    (h : Reachable F scanPage maxRooms redis k) : Life F k := by
  induction h with
  | init => exact .init hredis
  | @step k i request _ hadm ih =>
    have hstep : PodStep (F.config i) (k.pod i) k.last request
        ((GameService.handle (F.config i) request).run (watch scanPage) (k.pod i, k.last)).2.1 _ :=
      GameService.handle_step request
    rw [watch, (Prog.run_observing _ observe _ (k.pod i, k.last)).2] at hstep
    exact ih.step hadm hstep

end Life

end serve

def liveRooms [Fintype ι] (k : Cluster ι sim) : ℕ := ∑ i, (k.rooms i).rooms.keys.card

def liveIds [Fintype ι] (k : Cluster ι sim) : Finset String :=
  Finset.univ.biUnion fun i => (k.rooms i).rooms.keys

theorem mem_liveIds [Fintype ι] {k : Cluster ι sim} {r : String} :
    r ∈ k.liveIds ↔ ∃ i, r ∈ (k.rooms i).rooms := by
  simp [liveIds, Finmap.mem_keys]

theorem Life.card_liveIds [Fintype ι] [DecidableEq ι] {F : Fleet ι} {k : Cluster ι sim}
    (h : Life F k) : k.liveIds.card = k.liveRooms := by
  refine Finset.card_biUnion fun i _ j _ hij => ?_
  rw [Function.onFun, Finset.disjoint_left]
  intro r hi hj
  exact hij (h.once i j r (Finmap.mem_keys.mp hi) (Finmap.mem_keys.mp hj))

end Cluster

theorem collectMetricsSnapshot_run (s : ServerState sim Store) {fuel : ℕ} {keys : List String}
    (hkeys : scannedKeys scanPage (s.redis.insert (heartbeatKey cfg.podIp) (.string "1")) fuel 0 =
      some keys) :
    ∃ snapshot, ((GameService.collectMetricsSnapshot cfg fuel).run
        (GameService.exec (Store.backend scanPage)) s).1 = some snapshot ∧
      snapshot.globalActiveRooms = ((keys.filter isRoomKey).filterMap
        (snapshotOf (s.redis.insert (heartbeatKey cfg.podIp) (.string "1")))).countP
          fun entry => countsAsActive cfg.text entry.2 := by
  obtain ⟨redis, hredis⟩ : ∃ redis,
      redis = s.redis.insert (heartbeatKey cfg.podIp) (.string "1") := ⟨_, rfl⟩
  rw [← hredis] at hkeys ⊢
  have hpairs : ((getAllRoomSnapshots fuel).run (Store.backend scanPage).exec redis).1 =
      some ((keys.filter isRoomKey).filterMap (snapshotOf redis)) := by
    rw [getAllRoomSnapshots_run, hkeys]
    rfl
  have htouch : ((GameService.refreshHeartbeat cfg.podIp 30).run (Store.backend scanPage).exec
      s.redis).2 = redis := hredis.symm
  exact GameService.globalActiveRooms_run cfg s htouch rfl rfl hpairs

namespace Cluster
variable {ι : Type} [Fintype ι] [DecidableEq ι]

def admissibleTest (k : Cluster ι sim) (i : ι) (request : Request) : Bool :=
  decide (PlainId request.roomId) &&
    match request with
    | .createRoom q => decide (∀ j, j ≠ i → q.roomId ∉ (k.rooms j).rooms.keys)
    | _ => true

theorem admissible_of_test {k : Cluster ι sim} {i : ι} {request : Request}
    (h : k.admissibleTest i request = true) : k.Admissible i request := by
  obtain ⟨hplain, hdistinct⟩ := (Bool.and_eq_true _ _).mp h
  refine ⟨of_decide_eq_true hplain, ?_⟩
  rintro q rfl j hj hmem
  have hnot : ∀ j, j ≠ i → q.roomId ∉ (k.rooms j).rooms.keys := of_decide_eq_true hdistinct
  exact hnot j hj (Finmap.mem_keys.mpr hmem)

def serveAll (F : Fleet ι) (scanPage : ScanPolicy) :
    Cluster ι sim → List (ι × Request) → Option (Cluster ι sim)
  | k, [] => some k
  | k, (i, request) :: rest =>
    if k.admissibleTest i request then serveAll F scanPage (k.serve F scanPage i request) rest
    else none

theorem reachable_of_serveAll {F : Fleet ι} {maxRooms : ι → ℕ} {redis : Store}
    {requests : List (ι × Request)} {k k' : Cluster ι sim}
    (hk : Reachable F scanPage maxRooms redis k) (h : serveAll F scanPage k requests = some k') :
    Reachable F scanPage maxRooms redis k' := by
  induction requests generalizing k with
  | nil => cases h; exact hk
  | cons request rest ih =>
    rw [serveAll] at h
    split at h
    · rename_i hadm
      exact ih (hk.step (admissible_of_test hadm)) h
    · cases h

theorem exists_reachable_of_serveAll (F : Fleet ι) (scanPage : ScanPolicy) (maxRooms : ι → ℕ)
    (redis : Store) (requests : List (ι × Request)) (check : Cluster ι sim → Bool)
    (h : (serveAll F scanPage (init maxRooms redis) requests).any check = true) :
    ∃ k, Reachable F scanPage maxRooms redis k ∧ check k = true := by
  obtain ⟨k, hk, hcheck⟩ := (Option.any_eq_true _ _).mp h
  exact ⟨k, reachable_of_serveAll .init hk, hcheck⟩

end Cluster

namespace Sample

def fixedSimulator (battle : Json) : Simulator where
  BattleSession := Unit
  Battle := Unit
  createFromJson _ := .ok (.ok ())
  processTurn _ _ := (.ok battle, ())
  getBattle _ := some ()
  battleAllInfoToJson _ := .ok battle

def fixedText (battle : Json) (dumped : String) : JsonText where
  parse s := if s = dumped then .ok battle
    else if s = emptyText then .ok (.object []) else .error ⟨"parse error"⟩
  dump _ := dumped

theorem fixedSimulator_returns {battle j : Json} (h : (fixedSimulator battle).Returns j) :
    j = battle := by
  rcases h with ⟨_, hj⟩ | ⟨_, _, hj⟩
  · exact (Except.ok.inj hj).symm
  · exact (Except.ok.inj hj).symm

theorem fixedText_round {battle j : Json} (dumped : String)
    (h : (fixedSimulator battle).Returns j) :
    (fixedText battle dumped).parse ((fixedText battle dumped).dump j) = .ok j := by
  simp [fixedText, fixedSimulator_returns h]

def battleJson : Json := .object [("ok", .bool true), ("turn", .int 0)]
def statusJson : Json := .object [("ok", .bool true), ("status", .int 1)]

def fleet (battle : Json) (dumped : String) : Fleet Bool where
  text := fixedText battle dumped
  serverId _ := "server-0"
  podIp pod := if pod then "10.0.0.2" else "10.0.0.1"

theorem scanAll_scansOnce : ScansOnce scanAll := fun s => ⟨1, s.keys, rfl, .refl _⟩

def twoPods : List (Bool × Request) :=
  [(false, create "r"), (true, create "s"), (false, command "r"), (true, create "t"),
    (true, destroy "t"), (false, .getHeartbeat)]

end Sample

end PokemonServer
