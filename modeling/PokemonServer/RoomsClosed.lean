import PokemonServer.Drain
import PokemonServer.Shutdown

/-!
# The rooms after GracefulShutdown

Once the closing loop has ended, in every run that goes on from there, `rooms_` is empty
and `room_count_` is 0, and the ledger balances: each insertion was followed by one
erasure, and the counter was updated once for each.
-/

namespace PokemonServer
open Interleaving

namespace LockedPod
variable {sim : Simulator} {cfg : ServiceConfig} {scanPage : ScanPolicy} {maxRooms : ℕ}
  {redis : Store}

abbrev StepConfiguration (sim : Simulator) (podIp : String) :=
  Config (LockedPod sim) (PodRequest podIp) StepOp StepOp.Res PodResult

def Drained {podIp : String} (c : StepConfiguration sim podIp) (t : ℕ) : Prop :=
  (∃ p, c.pool[t]? = some ⟨.gracefulShutdown, p⟩) ∧
    ∃ es fs, history t c.log = es ++ fs ∧ Path (Pod.drain.expand steps) es (.ret ())

/-- No room is left, each one that was ever inserted has been erased once, and the counter
has been updated once for each. -/
structure RoomsClosed {podIp : String} (c : StepConfiguration sim podIp) : Prop where
  rooms : c.shared.pod.server.rooms.rooms = ∅
  roomCount : c.shared.pod.server.rooms.roomCount = 0
  due : EachDue c.log
  erased : (tally c.log).erased.Perm (tally c.log).inserted
  counted : (tally c.log).fetchAdds = (tally c.log).inserted.length ∧
    (tally c.log).fetchSubs = (tally c.log).erased.length

theorem Drained.step {c c' : StepConfiguration sim cfg.podIp} {t : ℕ} (h : Drained c t)
    {a : Action (PodRequest cfg.podIp)} (hfire : (system sim cfg scanPage).fire c a = some c') :
    Drained c' t := by
  obtain ⟨⟨p, hpool⟩, es, fs, hhistory, hpath⟩ := h
  have hlt : t < c.pool.length := (List.getElem?_eq_some_iff.mp hpool).1
  cases a with
  | start req =>
    cases hfire
    refine ⟨⟨p, ?_⟩, es, fs, hhistory, hpath⟩
    exact (List.getElem?_append_left hlt).trans hpool
  | run u =>
    obtain ⟨req, op, next, hat, -, rfl⟩ := System.fire_run hfire
    by_cases hu : u = t
    · subst hu
      obtain rfl : req = .gracefulShutdown := by
        rw [hpool] at hat
        cases hat
        rfl
      refine ⟨⟨_, List.getElem?_set_self hlt⟩, es,
        fs ++ [⟨op, ((system sim cfg scanPage).exec op c.shared).1⟩], ?_, hpath⟩
      rw [history, if_pos rfl, hhistory, List.append_assoc]
    · refine ⟨⟨p, (List.getElem?_set_ne hu).trans hpool⟩, es, fs, ?_, hpath⟩
      rw [history, if_neg hu, hhistory]

theorem Drained.later {c c' : StepConfiguration sim cfg.podIp} {t : ℕ} (h : Drained c t)
    {ok : StepConfiguration sim cfg.podIp → Action (PodRequest cfg.podIp) → Prop}
    (hrun : (system sim cfg scanPage).ReachableFrom ok c c') : Drained c' t := by
  induction hrun with
  | refl => exact h
  | step _ _ hfire ih => exact ih.step hfire

theorem drained_of_returned {ok : StepConfiguration sim cfg.podIp →
      Action (PodRequest cfg.podIp) → Prop} {s : LockedPod sim}
    {c : StepConfiguration sim cfg.podIp} (h : (system sim cfg scanPage).Reachable ok s c) {t : ℕ}
    {r : PodResult} (hpool : c.pool[t]? = some ⟨.gracefulShutdown, .ret r⟩) : Drained c t := by
  have hpath : Path (code cfg .gracefulShutdown) (history t c.log) (.ret r) :=
    (System.path_of_reachable h).2 t _ hpool
  rw [code, Pod.code, Pod.gracefulShutdown, Prog.expand_bind] at hpath
  obtain ⟨_, es, fs, hhistory, hdrain, -⟩ := Path.bind_ret_iff.mp hpath
  exact ⟨⟨_, hpool⟩, es, fs, hhistory, hdrain⟩

theorem next_done {podIp : String} {req : PodRequest podIp} {φ φ' : StepPhase} {op : StepOp}
    {res : op.Res} (h : (stepProtocol podIp).next req φ op res = some φ')
    (hφ : φ.drain = .done) : φ'.drain = .done := by
  cases op with
  | room op =>
    obtain ⟨-, -, -, hdrain⟩ := StepPhase.next_room h
    rw [hdrain, hφ]
    cases op <;> rfl
  | pod op =>
    simp only [stepProtocol, StepPhase.next, Option.ite_none_left_eq_some, Option.some.injEq] at h
    exact h.2 ▸ hφ

theorem along_done {podIp : String} {req : PodRequest podIp} {φ φ' : StepPhase}
    {es : List (Exchange StepOp StepOp.Res)}
    (h : (stepProtocol podIp).along req φ es = some φ') (hφ : φ.drain = .done) :
    φ'.drain = .done := by
  induction es generalizing φ with
  | nil =>
    cases h
    exact hφ
  | cons x es ih =>
    obtain ⟨ψ, hψ, hrest⟩ := Option.bind_eq_some_iff.mp h
    exact ih hrest (next_done hψ hφ)

theorem Drained.done {c : StepConfiguration sim cfg.podIp} {t : ℕ} (h : Drained c t)
    (htracks : (stepProtocol cfg.podIp).Tracks Any c) :
    ∃ φ, ((stepProtocol cfg.podIp).view c).phases t = some (.gracefulShutdown, φ) ∧
      φ.drain = .done := by
  obtain ⟨⟨p, hpool⟩, es, fs, hhistory, hpath⟩ := h
  obtain ⟨φ, hφ, -⟩ := htracks.follows t _ hpool
  obtain ⟨_, hes, rfl⟩ := drain_ends.along hpath fun _ _ => trivial
  refine ⟨φ, by simp [Protocol.view, hpool, hφ], ?_⟩
  rw [Protocol.phase_eq_along, hhistory, Protocol.along_append] at hφ
  obtain ⟨ψ, hψ, hfs⟩ := Option.bind_eq_some_iff.mp hφ
  obtain rfl := Option.some.inj (hes.symm.trans hψ)
  exact along_done hfs rfl

namespace Life
variable {podIp : String} {s : LockedPod sim} {phases : StepPhases podIp} {log : StepLog}

theorem settled (h : Life maxRooms s phases log) (hrooms : s.rooms.manager.rooms.keys = ∅)
    (hcount : s.rooms.manager.roomCount = 0) : (tally log).Settled := by
  by_cases hfree : s.rooms.writer = false
  · exact h.tallied.in_step hfree
  · obtain ⟨t, call, φ, ht, hexclusive⟩ :=
      h.life.writer_iff.mp (Bool.eq_true_of_not_eq_false hfree)
    have hknows := h.life.knows t call φ ht
    have htallied := h.tallied.knows t call φ ht
    cases φ with
    | inserted | erased =>
      simp only [LockPhase.Knows, hrooms, hcount, Finset.card_empty] at hknows
      omega
    | outside | shared => exact hexclusive.elim
    | _ => exact htallied

theorem balanced (h : Life maxRooms s phases log) (hrooms : s.rooms.manager.rooms = ∅) :
    (tally log).erased.Perm (tally log).inserted := by
  refine List.perm_iff_count.mpr fun roomId => ?_
  have hcount := h.tallied.rooms roomId
  rw [hrooms, if_neg (Finmap.notMem_empty)] at hcount
  exact hcount.symm

end Life

theorem roomsClosed_of_drained {c : StepConfiguration sim cfg.podIp}
    (h : (system sim cfg scanPage).Reachable (fun _ _ => True)
      (started (GameService.initState maxRooms redis)) c) {t : ℕ} (ht : Drained c t) :
    RoomsClosed c := by
  have hguarded : (system sim cfg scanPage).Reachable
      ((stepProtocol cfg.podIp).guarded (fun _ => True) fun _ _ _ _ => True)
      (started (GameService.initState maxRooms redis)) c :=
    h.mono fun c a _ => by cases a <;> simp [Protocol.guarded]
  have hpossible : ∀ op s, Any op ((system sim cfg scanPage).exec op s).1 := fun _ _ => trivial
  obtain ⟨htracks, hview⟩ :=
    Protocol.tracks_of_reachable hpossible (fun req _ => code_follows cfg req) hguarded
  have hlife := Life.of_viewReachable hview
  obtain ⟨φ, hφ, hdone⟩ := ht.done htracks
  have hknows := hlife.drain.knows t _ φ hφ
  rw [hdone] at hknows
  obtain ⟨-, hkeys, hcount⟩ := hknows
  have hrooms : c.shared.pod.server.rooms.rooms = ∅ := by
    refine Finmap.ext_lookup fun roomId => ?_
    rw [Finmap.lookup_empty, Finmap.lookup_eq_none, ← Finmap.mem_keys]
    exact hkeys ▸ Finset.notMem_empty roomId
  have hsettled := hlife.settled hkeys hcount
  exact ⟨hrooms, hcount, hlife.due, hlife.balanced hrooms, hsettled.1.symm, hsettled.2.symm⟩

/-- Shutdown leaves no room behind. -/
theorem shutdown_leavesNoRoom (cfg : ServiceConfig) (scanPage : ScanPolicy) (maxRooms : ℕ)
    (redis : Store) {c c' : StepConfiguration sim cfg.podIp}
    (h : (system sim cfg scanPage).Reachable (fun _ _ => True)
      (started (GameService.initState maxRooms redis)) c) {t : ℕ} (ht : Drained c t)
    (hrest : (system sim cfg scanPage).ReachableFrom (fun _ _ => True) c c') : RoomsClosed c' :=
  roomsClosed_of_drained (h.trans (fun _ _ h => h) hrest) (ht.later hrest)

def hasShutDown {podIp : String} (c : StepConfiguration sim podIp) (t : ℕ) : Bool :=
  match c.pool[t]? with
  | some ⟨.gracefulShutdown, .ret _⟩ => true
  | _ => false

theorem drained_of_hasShutDown {ok : StepConfiguration sim cfg.podIp →
      Action (PodRequest cfg.podIp) → Prop} {s : LockedPod sim}
    {c : StepConfiguration sim cfg.podIp} (h : (system sim cfg scanPage).Reachable ok s c) {t : ℕ}
    (ht : hasShutDown c t = true) : Drained c t := by
  unfold hasShutDown at ht
  split at ht
  · rename_i r hpool
    exact drained_of_returned h hpool
  · cases ht

end LockedPod

namespace Sample

abbrev lockedProcess :
    System (LockedPod simulator) (PodRequest podA.address) StepOp StepOp.Res PodResult :=
  LockedPod.system simulator ⟨text, "server-0", podA.address⟩ scanAll

def racingShutdown : List (Action (PodRequest podA.address)) :=
  launch (.rpc (create "a")) ++ turns 0 18 ++ launch (.rpc (create "b")) ++ turns 1 8 ++
    launch .gracefulShutdown ++ turns 2 11 ++ turns 1 10 ++ turns 2 3 ++
    launch (.rpc (destroy "a")) ++ turns 3 10 ++ turns 2 10 ++
    launch (.rpc (create "c")) ++ turns 4 3 ++ turns 2 1 ++
    launch (.heartbeatThread 1) ++ turns 5 3 ++ turns 2 3 ++
    launch (.metricsThread true [.nothing]) ++ turns 6 3 ++ turns 2 6

end Sample

namespace LockedPod
open Sample

theorem racingShutdown_leavesNoRoom :
    ∃ c c', lockedProcess.Reachable (fun _ _ => True) (started (GameService.initState 10 ∅)) c ∧
      Drained c 2 ∧ (tally c.log).inserted = ["b", "a"] ∧
      lockedProcess.ReachableFrom (fun _ _ => True) c c' ∧ RoomsClosed c' := by
  obtain ⟨c, hreach, hcheck⟩ := System.exists_reachable_of_schedule (S := lockedProcess)
    (s := started (GameService.initState 10 ∅)) racingShutdown
    (fun c => hasShutDown c 2 && decide ((tally c.log).inserted = ["b", "a"])) (by decide +kernel)
  simp only [Bool.and_eq_true, decide_eq_true_eq] at hcheck
  have hdrained := drained_of_hasShutDown hreach hcheck.1
  have hlater : lockedProcess.ReachableFrom (fun _ _ => True) c _ :=
    .step (a := .start (.rpc (create "d"))) .refl trivial rfl
  exact ⟨c, _, hreach, hdrained, hcheck.2, hlater,
    shutdown_leavesNoRoom _ scanAll 10 ∅ hreach hdrained hlater⟩

end LockedPod
end PokemonServer
