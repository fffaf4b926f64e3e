import PokemonServer.RoomSession

/-!
# Room snapshots in Redis

The key `pokemon:room:<r>` is written after the room manager and the engine have
been left, and deleted after the room has been closed. It agrees with the room
map at quiescence when three orders are kept: a snapshot is written while its
room is live or its deletion still ahead; it is deleted while the room is gone or
another write still ahead; a live room has its session when its creation reads it.
-/

namespace PokemonServer
open Interleaving RedisClient RoomProtocol

def Removing (r : String) (req : Request) (φ : Phase) : Prop :=
  req.roomId = r ∧ (φ = .closing ∨ φ = .deleting)

/-- A creation of `r` past its insertion, or an accepted turn on `r`, that has not
yet written its snapshot. -/
def Pending (r : String) (req : Request) (φ : Phase) : Prop :=
  req.roomId = r ∧ (φ = .creating ∨ φ = .failing ∨ φ = .created ∨ ∃ data, φ = .writing data)

variable {sim : Simulator} {R : Type} {cfg : ServiceConfig} {scanPage : ScanPolicy}

def Live (r : String) (s : ServerState sim R) (phases : Phases) : Prop :=
  r ∈ s.rooms.rooms ∧ ¬ (Protocol.threads phases (Half r)).Nonempty

/-- The orders that keep the snapshots in step with the rooms. -/
def snapshotsOrdered (v : ServiceView sim R) (_ : ℕ) (req : Request) : ServerOp → Prop
  | .redis (.command (.set key _ _)) => key = roomKey req.roomId →
    Live req.roomId v.shared v.phases ∨ (Protocol.threads v.phases (Removing req.roomId)).Nonempty
  | .redis (.command (.del _)) => req.roomId ∈ v.shared.rooms.rooms →
    (Protocol.threads v.phases (Pending req.roomId)).Nonempty
  | .getState r => Live r v.shared v.phases → r ∈ v.shared.engine.sessions
  | _ => True

structure SnapshotLife (r : String) (s : ServerState sim Store) (phases : Phases) : Prop where
  live_of_key : roomKey r ∈ s.redis →
    Live r s phases ∨ (Protocol.threads phases (Removing r)).Nonempty
  key_of_room : r ∈ s.rooms.rooms →
    roomKey r ∈ s.redis ∨ (Protocol.threads phases (Pending r)).Nonempty

theorem SnapshotLife.congr {r : String} {s s' : ServerState sim Store} {phases phases' : Phases}
    (h : SnapshotLife r s phases) (hroom : r ∈ s'.rooms.rooms ↔ r ∈ s.rooms.rooms)
    (hkey : roomKey r ∈ s'.redis ↔ roomKey r ∈ s.redis)
    (hhalf : Protocol.threads phases' (Half r) = Protocol.threads phases (Half r))
    (hremoving : Protocol.threads phases' (Removing r) = Protocol.threads phases (Removing r))
    (hpending : Protocol.threads phases (Pending r) ⊆ Protocol.threads phases' (Pending r)) :
    SnapshotLife r s' phases' where
  live_of_key hk := by
    rw [Live, hroom, hhalf, hremoving]
    exact h.live_of_key (hkey.mp hk)
  key_of_room hr := by
    rw [hkey]
    exact (h.key_of_room (hroom.mp hr)).imp_right fun hp => hp.mono hpending

/-- The simulator can always show the state of a session. -/
def Simulator.StateReturns (sim : Simulator) : Prop :=
  ∀ session, ∃ battle state, sim.getBattle session = some battle ∧
    sim.battleAllInfoToJson battle = .ok state

theorem BattleEngine.getState_of_mem (hstate : sim.StateReturns) {e : BattleEngine sim}
    {r : String} (hr : r ∈ e.sessions) : ∃ state, e.getState r = .ok (.ok state) := by
  obtain ⟨session, hsession⟩ := Finmap.mem_iff.mp hr
  obtain ⟨battle, state, hbattle, hjson⟩ := hstate session
  exact ⟨state, by simp [getState, hsession, hbattle, hjson, Except.map]⟩

theorem effect_other_key {s s' : ServerState sim Store} {req : Request} {φ φ' : Phase}
    {op : ServerOp} {r : String} (h : Effect cfg (Store.backend scanPage) s req φ op φ' s')
    (hplain : PlainId r) (hplain' : PlainId req.roomId) (hr : req.roomId ≠ r) :
    roomKey r ∈ s'.redis ↔ roomKey r ∈ s.redis := by
  cases h with
  | writeSnapshot =>
    simp [Store.backend, Store.exec, roomKey_injective.eq_iff, Ne.symm hr]
  | @deleteSnapshot q =>
    have hkey : roomKey r ∉ deletedKeys q.roomId := fun hmem =>
      hr ((roomKey_mem_deletedKeys hplain hplain').mp hmem).symm
    simp [Store.backend, Store.exec, Store.mem_delKeys, hkey]
  | heartbeat =>
    simp [Store.backend, Store.exec, (heartbeatKey_ne_roomKey cfg.podIp r).symm]
  | _ => exact Iff.rfl

theorem SnapshotLife.effect (hstate : sim.StateReturns) {r : String}
    {v : ServiceView sim Store} {s' : ServerState sim Store} {t : ℕ} {req : Request}
    {φ φ' : Phase} {op : ServerOp} (h : SnapshotLife r v.shared v.phases) (hr : PlainId r)
    (hplain : PlainId req.roomId) (ht : v.phases t = some (req, φ))
    (heff : Effect cfg (Store.backend scanPage) v.shared req φ op φ' s')
    (hguard : snapshotsOrdered v t req op) :
    SnapshotLife r s' (Function.update v.phases t (some (req, φ'))) := by
  by_cases hreq : req.roomId = r
  swap
  · exact h.congr (effect_other_room heff hreq).1 (effect_other_key heff hr hplain hreq)
      (Protocol.threads_update_iff ht (by simp [Half, hreq]))
      (Protocol.threads_update_iff ht (by simp [Removing, hreq]))
      (Protocol.threads_update_iff ht (by simp [Pending, hreq])).ge
  subst hreq
  have hhalf : t ∈ Protocol.threads v.phases (Half req.roomId) ↔ φ = .creating ∨ φ = .failing := by
    simp [Protocol.mem_threads ht, Half]
  cases heff with
  | @insert q name players hne hnot hres =>
    refine ⟨fun hk => ?_, fun _ => Or.inr ?_⟩
    · rw [Protocol.threads_update_iff ht (by simp [Removing])]
      exact (h.live_of_key hk).imp_left fun hlive => absurd hlive.1 hnot
    · rw [Protocol.threads_update_pos (by simp [Pending])]
      exact Set.insert_nonempty _ _
  | @openSession q init session hsession hnot =>
    refine ⟨fun hk => ?_, fun hroom => ?_⟩
    · rw [Protocol.threads_update_iff ht (by simp [Removing])]
      exact (h.live_of_key hk).imp_left fun hlive =>
        absurd ⟨t, hhalf.mpr (by simp)⟩ hlive.2
    · rw [Protocol.threads_update_iff ht (by simp [Pending])]
      exact h.key_of_room hroom
  | @noState q hno =>
    refine ⟨fun hk => ?_, fun hroom => ?_⟩
    · unfold Live
      rw [Protocol.threads_update_iff ht (by simp [Half]),
        Protocol.threads_update_iff ht (by simp [Removing])]
      exact h.live_of_key hk
    · have hmissing : q.roomId ∉ v.shared.engine.sessions := by
        intro hmem
        obtain ⟨state, hs⟩ := BattleEngine.getState_of_mem hstate hmem
        exact hno state hs
      have hnotlive := mt hguard hmissing
      obtain ⟨u, hu⟩ : (Protocol.threads v.phases (Half q.roomId)).Nonempty := by
        by_contra hempty
        exact hnotlive ⟨hroom, hempty⟩
      have hut : u ≠ t := by
        rintro rfl
        simpa using hhalf.mp hu
      obtain ⟨req', φ', hφ', hid, hphase⟩ := hu
      refine Or.inr ⟨u, Protocol.mem_threads_update.mpr (Or.inr ⟨hut, req', φ', hφ', hid, ?_⟩)⟩
      exact hphase.imp_right Or.inl
  | @cleanUp q =>
    refine ⟨fun hk => ?_, fun hroom => ?_⟩
    · rw [Protocol.threads_update_iff ht (by simp [Removing])]
      exact (h.live_of_key hk).imp_left fun hlive =>
        absurd ⟨t, hhalf.mpr (by simp)⟩ hlive.2
    · exact absurd rfl (RoomManager.mem_closeRoom.mp hroom).1
  | @close q hmem =>
    refine ⟨fun _ => Or.inr ?_, fun hroom => ?_⟩
    · rw [Protocol.threads_update_pos (by simp [Removing])]
      exact Set.insert_nonempty _ _
    · exact absurd rfl (RoomManager.mem_closeRoom.mp hroom).1
  | writeSnapshot =>
    refine ⟨fun _ => ?_, fun _ => Or.inl (by simp [Store.backend, Store.exec])⟩
    unfold Live
    rw [Protocol.threads_update_iff ht (by simp [Half]),
      Protocol.threads_update_iff ht (by simp [Removing])]
    exact hguard rfl
  | @deleteSnapshot q =>
    have hkey : roomKey q.roomId ∈ deletedKeys q.roomId :=
      (roomKey_mem_deletedKeys hplain hplain).mpr rfl
    refine ⟨fun hk => ?_, fun hroom => Or.inr ?_⟩
    · exact absurd hkey (Store.mem_delKeys.mp hk).1
    · rw [Protocol.threads_update_iff ht (by simp [Pending])]
      exact hguard hroom
  | accepted hturn hacc =>
    refine h.congr Iff.rfl Iff.rfl (Protocol.threads_update_iff ht (by simp [Half]))
      (Protocol.threads_update_iff ht (by simp [Removing])) ?_
    rw [Protocol.threads_update_pos (by simp [Pending])]
    exact Set.subset_insert _ _
  | disconnected hc => cases hc
  | heartbeat =>
    refine h.congr Iff.rfl ?_ (Protocol.threads_update_iff ht Iff.rfl)
      (Protocol.threads_update_iff ht Iff.rfl) (Protocol.threads_update_iff ht Iff.rfl).ge
    simp [Store.backend, Store.exec, (heartbeatKey_ne_roomKey cfg.podIp req.roomId).symm]
  | _ =>
    exact h.congr Iff.rfl Iff.rfl (Protocol.threads_update_iff ht (by simp [Half]))
      (Protocol.threads_update_iff ht (by simp [Removing]))
      (Protocol.threads_update_iff ht (by simp [Pending])).ge

theorem snapshotLife_of_viewReachable (hstate : sim.StateReturns) {r : String} (hr : PlainId r)
    {maxRooms : ℕ} {v : ServiceView sim Store}
    (h : (roomProtocol cfg).ViewReachable (GameService.system sim cfg (Store.backend scanPage))
      (fun req => PlainId req.roomId) snapshotsOrdered (GameService.initState maxRooms ∅) v) :
    SnapshotLife r v.shared v.phases := by
  induction h with
  | init => exact ⟨fun hk => absurd hk (AList.notMem_empty _), fun hroom =>
      absurd hroom Finmap.notMem_empty⟩
  | start _ hfresh _ ih =>
    exact ih.congr Iff.rfl Iff.rfl (Protocol.threads_start hfresh (by simp [Half, roomProtocol]))
      (Protocol.threads_start hfresh (by simp [Removing, roomProtocol]))
      (Protocol.threads_start hfresh (by simp [Pending, roomProtocol])).ge
  | op hv ht _ hguard hnext ih =>
    exact ih.effect hstate hr (hv.allowed ht) ht (effect_of_next _ hnext) hguard

def SnapshotsAgree (c : ServiceConfiguration sim Store) : Prop :=
  ∀ r, PlainId r → (roomKey r ∈ c.shared.redis ↔ r ∈ c.shared.rooms.rooms)

/-- In a run that keeps the three orders, every quiescent state has a snapshot
key for exactly the rooms of the room map. -/
theorem snapshotsAgree_of_snapshotsOrdered (hsim : sim.CreationReturns)
    (hstate : sim.StateReturns) (scanPage : ScanPolicy) (maxRooms : ℕ)
    {c : ServiceConfiguration sim Store}
    (h : (GameService.system sim cfg (Store.backend scanPage)).Reachable
      ((roomProtocol cfg).guarded (fun req => PlainId req.roomId) snapshotsOrdered)
      (GameService.initState maxRooms ∅) c)
    (hq : c.Quiescent) : SnapshotsAgree c := by
  obtain ⟨htracks, hview⟩ := tracks hsim h
  intro r hr
  have hlife : SnapshotLife r c.shared ((roomProtocol cfg).view c).phases :=
    snapshotLife_of_viewReachable hstate hr hview
  have hremoving := threads_eq_empty_of_quiescent (p := Removing r) (by simp [Removing]) htracks hq
  have hpending := threads_eq_empty_of_quiescent (p := Pending r) (by simp [Pending]) htracks hq
  constructor
  · intro hkey
    rcases hlife.live_of_key hkey with hlive | hne
    · exact hlive.1
    · exact absurd hne (by simp [hremoving])
  · intro hroom
    rcases hlife.key_of_room hroom with hkey | hne
    · exact hkey
    · exact absurd hne (by simp [hpending])

def Sample.commandOutlivesRoom : List (Action Request) :=
  begin (create "r") ++ calls 0 7 ++ begin (command "r") ++ calls 1 2 ++ begin (destroy "r") ++
    calls 2 4 ++ calls 1 2

open Sample in
theorem snapshot_outlives_room :
    ∃ c, service.Reachable (fun _ _ => True) state c ∧
      c.pool.map Thread.req = [create "r", command "r", destroy "r"] ∧ c.Quiescent ∧
      ¬ SnapshotsAgree c := by
  obtain ⟨c, hreach, hcheck⟩ := System.exists_reachable_of_schedule (S := service) (s := state)
    commandOutlivesRoom
    (fun c => c.isQuiescent &&
      decide (c.pool.map Thread.req = [create "r", command "r", destroy "r"]) &&
      decide (roomKey "r" ∈ c.shared.redis) && !decide ("r" ∈ c.shared.rooms.rooms))
    (by decide +kernel)
  simp only [Bool.and_eq_true, Bool.not_eq_true', decide_eq_true_eq, decide_eq_false_iff_not]
    at hcheck
  obtain ⟨⟨⟨hquiet, hreqs⟩, hkey⟩, hroom⟩ := hcheck
  exact ⟨c, hreach, hreqs, Config.quiescent_of_isQuiescent hquiet, fun hagree =>
    hroom ((hagree "r" (by decide)).mp hkey)⟩

def snapshotsOrderedTest (cfg : ServiceConfig) (c : ServiceConfiguration sim R) (_ : ℕ)
    (req : Request) : ServerOp → Bool
  | .redis (.command (.set _ _ _)) => decide (req.roomId ∈ c.shared.rooms.rooms) &&
      !(roomProtocol cfg).anyThread c fun req' φ => decide (Half req.roomId req' φ)
  | .redis (.command (.del _)) => !decide (req.roomId ∈ c.shared.rooms.rooms)
  | .getState r => decide (r ∈ c.shared.engine.sessions)
  | _ => true

theorem snapshotsOrdered_of_test {c : ServiceConfiguration sim R} {t : ℕ} {req : Request}
    {op : ServerOp} (h : snapshotsOrderedTest cfg c t req op = true) :
    snapshotsOrdered ((roomProtocol cfg).view c) t req op := by
  unfold snapshotsOrderedTest at h
  split at h
  · simp only [Bool.and_eq_true, decide_eq_true_eq, Bool.not_eq_true', ← Bool.not_eq_true,
      Protocol.anyThread_iff] at h
    exact fun _ => Or.inl h
  · intro hroom
    simp only [Bool.not_eq_true', decide_eq_false_iff_not] at h
    exact absurd hroom h
  · exact fun _ => of_decide_eq_true h
  · unfold snapshotsOrdered
    split <;> simp_all

def Sample.commandsInTime : List (Action Request) :=
  begin (create "r") ++ begin (create "s") ++ calls 0 5 ++ calls 1 7 ++ calls 0 2 ++
    begin (command "r") ++ begin (command "s") ++ calls 2 3 ++ calls 3 2 ++ calls 2 1 ++
    begin (destroy "r") ++ calls 4 3 ++ calls 3 2 ++ calls 4 1

open Sample in
theorem snapshotsAgree_after_commandsInTime :
    ∃ c, service.Reachable ((roomProtocol config).guarded (fun req => PlainId req.roomId)
        snapshotsOrdered) state c ∧
      c.shared.rooms.rooms.keys = {"s"} ∧ SnapshotsAgree c := by
  obtain ⟨c, hreach, hcheck⟩ := Protocol.exists_guarded_of_replay (S := service) (s := state)
    (P := roomProtocol config) (fun req => decide (PlainId req.roomId))
    (snapshotsOrderedTest config) (fun _ => of_decide_eq_true)
    (fun _ _ _ _ => snapshotsOrdered_of_test) commandsInTime
    (fun c => c.isQuiescent && decide (c.shared.rooms.rooms.keys = {"s"})) (by decide +kernel)
  simp only [Bool.and_eq_true, decide_eq_true_eq] at hcheck
  exact ⟨c, hreach, hcheck.2, snapshotsAgree_of_snapshotsOrdered (fun _ _ h => by cases h)
    (fun n => ⟨n, _, rfl, rfl⟩) scanAll 10 hreach (Config.quiescent_of_isQuiescent hcheck.1)⟩

end PokemonServer
