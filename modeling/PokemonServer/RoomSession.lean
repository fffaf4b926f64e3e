import PokemonServer.RoomLifecycle

/-!
# Rooms and sessions under concurrent handlers

Creation and destruction each change `rooms_` and `sessions_` in two separately
locked steps. The maps agree at quiescence, and a failed creation removes only
the room it inserted, in every run in which no destruction closes a half-created
room. One such close is enough to break both.
-/

namespace PokemonServer
open Interleaving RoomProtocol

variable {sim : Simulator} {R : Type} {B : RedisBackend R} {cfg : ServiceConfig}

abbrev ServiceConfiguration (sim : Simulator) (R : Type) :=
  Config (ServerState sim R) Request ServerOp ServerOp.Res Outcome

abbrev ServiceView (sim : Simulator) (R : Type) :=
  View (ServerState sim R) Request ServerOp ServerOp.Res Phase

/-- CloseRoom of a destruction is executed only when no creation of that room is
between its CreateRoomWithId and its CreateSession or clean-up. -/
def closesWholeRooms (v : ServiceView sim R) (_ : ℕ) (req : Request) (op : ServerOp) : Prop :=
  ∀ r, NoHalfClosed r v.phases req op

def closesWholeRoomsTest (cfg : ServiceConfig) (c : ServiceConfiguration sim R) (_ : ℕ) :
    Request → ServerOp → Bool
  | .destroyRoom _, .closeRoom r =>
    !(roomProtocol cfg).anyThread c fun req φ => decide (Half r req φ)
  | _, _ => true

theorem closesWholeRooms_of_test {c : ServiceConfiguration sim R} {t : ℕ} {req : Request}
    {op : ServerOp} (h : closesWholeRoomsTest cfg c t req op = true) :
    closesWholeRooms ((roomProtocol cfg).view c) t req op := by
  rintro r rfl rfl
  simp only [closesWholeRoomsTest, Bool.not_eq_true', ← Bool.not_eq_true, Protocol.anyThread_iff,
    decide_eq_true_eq] at h
  exact h

section runs
variable {allowed : Request → Prop} {guard : ServiceView sim R → ℕ → Request → ServerOp → Prop}
  {maxRooms : ℕ} {redis : R} {v : ServiceView sim R} {c : ServiceConfiguration sim R}

theorem roomLife_of_viewReachable {r : String}
    (hguard : ∀ v t req op, allowed req → guard v t req op → NoHalfClosed r v.phases req op)
    (h : (roomProtocol cfg).ViewReachable (GameService.system sim cfg B) allowed guard
      (GameService.initState maxRooms redis) v) : RoomLife r v.shared v.phases := by
  induction h with
  | init =>
    unfold RoomLife
    rw [Protocol.threads_none, Protocol.threads_none]
    exact Lifecycle.empty Finmap.notMem_empty Finmap.notMem_empty
  | start _ hfresh _ ih =>
    exact ih.congr Iff.rfl Iff.rfl (Protocol.threads_start hfresh (by simp [Half, roomProtocol]))
      (Protocol.threads_start hfresh (by simp [Closing, roomProtocol]))
  | op hv ht _ hg hnext ih =>
    exact ih.effect ht (effect_of_next _ hnext) (hguard _ _ _ _ (hv.allowed ht) hg)

theorem threads_eq_empty_of_quiescent {p : Request → Phase → Prop} (hp : ∀ req, ¬ p req .idle)
    (h : (roomProtocol cfg).Tracks Possible c) (hq : c.Quiescent) :
    Protocol.threads ((roomProtocol cfg).view c).phases p = ∅ := by
  refine Set.eq_empty_of_forall_notMem fun t => ?_
  rintro ⟨req, φ, hφ, hpφ⟩
  have hfinal : φ = .idle := h.final hφ fun th hth => hq th (List.mem_of_getElem? hth)
  exact hp req (hfinal ▸ hpφ)

end runs

def KeysAgree (c : ServiceConfiguration sim R) : Prop :=
  c.shared.rooms.rooms.keys = c.shared.engine.sessions.keys

/-- In a run that closes only whole rooms, every quiescent state has the same
keys in `rooms_` and `sessions_`. -/
theorem keysAgree_of_closesWholeRooms (hsim : sim.CreationReturns) (maxRooms : ℕ) (redis : R)
    {c : ServiceConfiguration sim R}
    (h : (GameService.system sim cfg B).Reachable
      ((roomProtocol cfg).guarded (fun _ => True) closesWholeRooms)
      (GameService.initState maxRooms redis) c)
    (hq : c.Quiescent) : KeysAgree c := by
  obtain ⟨htracks, hview⟩ := tracks hsim h
  ext r
  have hlife := roomLife_of_viewReachable (r := r) (fun _ _ _ _ _ hg => hg r) hview
  have hhalf := threads_eq_empty_of_quiescent (p := Half r) (by simp [Half]) htracks hq
  have hclosing := threads_eq_empty_of_quiescent (p := Closing r) (by simp [Closing]) htracks hq
  have hlive := hlife.live_iff
  rw [hhalf, hclosing] at hlive
  rw [Finmap.mem_keys, Finmap.mem_keys]
  simp only [Set.not_nonempty_empty, not_false_eq_true, and_true] at hlive
  exact hlive

def Sample.destroyInsideCreate : List (Action Request) :=
  begin (create "r") ++ begin (destroy "r") ++ calls 0 3 ++ calls 1 4 ++ calls 0 4

open Sample in
theorem keys_disagree_at_quiescence :
    ∃ c, service.Reachable (fun _ _ => True) state c ∧ c.Quiescent ∧ ¬ KeysAgree c := by
  obtain ⟨c, hreach, hcheck⟩ := System.exists_reachable_of_schedule (S := service) (s := state)
    destroyInsideCreate
    (fun c => c.isQuiescent && decide (c.shared.rooms.rooms.keys = ∅) &&
      decide (c.shared.engine.sessions.keys = {"r"})) (by decide +kernel)
  simp only [Bool.and_eq_true, decide_eq_true_eq] at hcheck
  obtain ⟨⟨hquiet, hrooms⟩, hsessions⟩ := hcheck
  refine ⟨c, hreach, Config.quiescent_of_isQuiescent hquiet, ?_⟩
  rw [KeysAgree, hrooms, hsessions]
  decide

def Sample.destroyAfterSession : List (Action Request) :=
  begin (create "r") ++ begin (create "s") ++ calls 0 4 ++ calls 1 7 ++ begin (destroy "r") ++
    calls 2 4 ++ calls 0 1

open Sample in
theorem keysAgree_after_destroyAfterSession :
    ∃ c, service.Reachable ((roomProtocol config).guarded (fun _ => True) closesWholeRooms) state c ∧
      c.shared.rooms.rooms.keys = {"s"} ∧ KeysAgree c := by
  obtain ⟨c, hreach, hcheck⟩ := Protocol.exists_guarded_of_replay (S := service) (s := state)
    (P := roomProtocol config) (fun _ => true) (closesWholeRoomsTest config) (fun _ _ => trivial)
    (fun _ _ _ _ => closesWholeRooms_of_test) destroyAfterSession
    (fun c => c.isQuiescent && decide (c.shared.rooms.rooms.keys = {"s"})) (by decide +kernel)
  simp only [Bool.and_eq_true, decide_eq_true_eq] at hcheck
  exact ⟨c, hreach, hcheck.2, keysAgree_of_closesWholeRooms (fun _ _ h => by cases h) 10 ∅ hreach
    (Config.quiescent_of_isQuiescent hcheck.1)⟩

end PokemonServer
