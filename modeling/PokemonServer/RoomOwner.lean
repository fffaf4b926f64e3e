import PokemonServer.RoomSession

/-!
# Which creation owns a room entry

The history tells which handler inserted the current entry of a room. In a run
that closes only whole rooms, the clean-up of a failed creation finds its own
entry, and an entry whose creation was answered disappears only by a destruction.
-/

namespace PokemonServer
open Interleaving RoomProtocol

variable {sim : Simulator} {R : Type} {B : RedisBackend R} {cfg : ServiceConfig}

/-- The handler that inserted the present entry of `r`, by the history. -/
def insertedBy (r : String) : List (Event ServerOp ServerOp.Res) → Option ℕ
  | [] => none
  | ⟨t, .createRoomWithId roomId _ _, res⟩ :: es =>
    if roomId = r ∧ res ≠ "" then some t else insertedBy r es
  | ⟨_, .closeRoom roomId, closed⟩ :: es =>
    if roomId = r ∧ closed = true then none else insertedBy r es
  | _ :: es => insertedBy r es

structure RoomOwned (r : String) (s : ServerState sim R) (phases : Phases)
    (log : List (Event ServerOp ServerOp.Res)) : Prop where
  room_iff : r ∈ s.rooms.rooms ↔ (insertedBy r log).isSome
  owner : ∀ t ∈ Protocol.threads phases (Half r), insertedBy r log = some t

theorem RoomOwned.congr {r : String} {s s' : ServerState sim R} {phases phases' : Phases}
    {log log' : List (Event ServerOp ServerOp.Res)} (h : RoomOwned r s phases log)
    (hroom : r ∈ s'.rooms.rooms ↔ r ∈ s.rooms.rooms) (hlog : insertedBy r log' = insertedBy r log)
    (hhalf : Protocol.threads phases' (Half r) ⊆ Protocol.threads phases (Half r)) :
    RoomOwned r s' phases' log' where
  room_iff := by rw [hroom, hlog, h.room_iff]
  owner t ht := by rw [hlog, h.owner t (hhalf ht)]

theorem RoomOwned.erased {r : String} {s' : ServerState sim R} {phases' : Phases}
    {log' : List (Event ServerOp ServerOp.Res)} (hroom : r ∉ s'.rooms.rooms)
    (hlog : insertedBy r log' = none) (hhalf : Protocol.threads phases' (Half r) = ∅) :
    RoomOwned r s' phases' log' where
  room_iff := by simp [hroom, hlog]
  owner t ht := by simp [hhalf] at ht

theorem RoomOwned.effect {r : String} {s s' : ServerState sim R} {phases : Phases}
    {log : List (Event ServerOp ServerOp.Res)} {t : ℕ} {req : Request} {φ φ' : Phase}
    {op : ServerOp} (h : RoomOwned r s phases log) (hlife : RoomLife r s phases)
    (ht : phases t = some (req, φ)) (heff : Effect cfg B s req φ op φ' s')
    (hguard : NoHalfClosed r phases req op) :
    RoomOwned r s' (Function.update phases t (some (req, φ')))
      (⟨t, op, (GameService.exec B op s).1⟩ :: log) := by
  cases heff with
  | read hread =>
    refine h.congr Iff.rfl ?_ (Protocol.threads_update_subset ht id)
    cases op <;> first | rfl | cases hread
  | @insert q name players hne hnot hres =>
    by_cases hr : q.roomId = r
    · subst hr
      have hempty : Protocol.threads phases (Half q.roomId) = ∅ := hlife.half_eq_empty hnot
      have hlog : insertedBy q.roomId (⟨t, .createRoomWithId q.roomId name players,
          (s.rooms.createRoomWithId q.roomId name players).1⟩ :: log) = some t := by
        simp [insertedBy, hres, hne]
      have hroom : q.roomId ∈ (s.rooms.createRoomWithId q.roomId name players).2.rooms :=
        (RoomManager.mem_createRoomWithId hne).mpr (Or.inl ⟨rfl, by rwa [hres]⟩)
      refine ⟨?_, ?_⟩
      · exact iff_of_true hroom (Option.isSome_of_mem hlog)
      · intro u hu
        rw [Protocol.threads_update_pos (by simp [Half, Request.roomId]), hempty] at hu
        obtain rfl : u = t := by simpa using hu
        exact hlog
    · refine h.congr ?_ ?_ (Protocol.threads_update_subset ht fun hp => absurd hp.1 hr)
      · rw [RoomManager.mem_createRoomWithId hne]
        exact or_iff_right fun he => hr he.1.symm
      · simp [insertedBy, hr]
  | refused hres =>
    refine h.congr Iff.rfl ?_ (Protocol.threads_update_subset ht id)
    simp [insertedBy, GameService.exec, hres]
  | @cleanUp q =>
    by_cases hr : q.roomId = r
    · subst hr
      have hmem : t ∈ Protocol.threads phases (Half q.roomId) :=
        (Protocol.mem_threads ht).mpr ⟨rfl, Or.inr rfl⟩
      have hroom : q.roomId ∈ s.rooms.rooms := hlife.room_of_half ⟨t, hmem⟩
      refine .erased (by simp [RoomManager.mem_closeRoom]) ?_ ?_
      · simp [insertedBy, GameService.exec, RoomManager.closeRoom_fst, hroom]
      · rw [Protocol.threads_update_neg (by simp [Half]),
          hlife.half_subsingleton.eq_singleton_of_mem hmem, Set.sdiff_self]
    · refine h.congr ?_ (by simp [insertedBy, hr]) (Protocol.threads_update_subset ht (by simp [Half]))
      rw [RoomManager.mem_closeRoom]
      exact and_iff_right (Ne.symm hr)
  | @close q hroom =>
    by_cases hr : q.roomId = r
    · subst hr
      refine .erased (by simp [RoomManager.mem_closeRoom]) ?_ ?_
      · simp [insertedBy, GameService.exec, RoomManager.closeRoom_fst, hroom]
      · rw [Protocol.threads_update_iff ht (by simp [Half])]
        exact Set.not_nonempty_iff_eq_empty.mp (hguard rfl rfl)
    · refine h.congr ?_ (by simp [insertedBy, hr]) (Protocol.threads_update_subset ht (by simp [Half]))
      rw [RoomManager.mem_closeRoom]
      exact and_iff_right (Ne.symm hr)
  | closeAbsent hroom =>
    refine h.congr Iff.rfl ?_ (Protocol.threads_update_subset ht id)
    simp [insertedBy, GameService.exec, RoomManager.closeRoom_fst, hroom]
  | sessionFails => exact h.congr Iff.rfl rfl (Protocol.threads_update_subset ht (by simp [Half]))
  | _ => exact h.congr Iff.rfl rfl (Protocol.threads_update_subset ht (by simp [Half]))

section runs
variable {allowed : Request → Prop} {guard : ServiceView sim R → ℕ → Request → ServerOp → Prop}
  {maxRooms : ℕ} {redis : R} {v : ServiceView sim R} {c : ServiceConfiguration sim R}

theorem roomOwned_of_viewReachable {r : String}
    (hguard : ∀ v t req op, allowed req → guard v t req op → NoHalfClosed r v.phases req op)
    (h : (roomProtocol cfg).ViewReachable (GameService.system sim cfg B) allowed guard
      (GameService.initState maxRooms redis) v) : RoomOwned r v.shared v.phases v.log := by
  induction h with
  | init => exact .erased Finmap.notMem_empty rfl Protocol.threads_none
  | start _ hfresh _ ih =>
    refine ih.congr Iff.rfl rfl (subset_of_eq ?_)
    exact Protocol.threads_start hfresh (by simp [Half, roomProtocol])
  | op hv ht _ hg hnext ih =>
    exact ih.effect (roomLife_of_viewReachable hguard hv) ht (effect_of_next _ hnext)
      (hguard _ _ _ _ (hv.allowed ht) hg)

end runs

def CreateAnswered (c : ServiceConfiguration sim R) (u : ℕ) : Prop :=
  ∃ req, c.pool[u]? =
    some ⟨req, .ret (GameService.common .ok "" 0 "Room created successfully")⟩

/-- A creation about to execute its clean-up CloseRoom would erase its own entry. -/
def CleansUpOwnEntry (c : ServiceConfiguration sim R) : Prop :=
  ∀ t q r, c.AboutTo t (.createRoom q) (.closeRoom r) → r ∈ c.shared.rooms.rooms →
    insertedBy r c.log = some t

/-- The next call, if it erases an entry whose creation was answered with code 0,
is the CloseRoom of a destruction of that room. -/
def ErasesAnsweredByDestroy (B : RedisBackend R) (c : ServiceConfiguration sim R) : Prop :=
  ∀ t req op u r, c.AboutTo t req op → r ∈ c.shared.rooms.rooms →
    r ∉ (GameService.exec B op c.shared).2.rooms.rooms → insertedBy r c.log = some u →
    CreateAnswered c u → (∃ q, req = .destroyRoom q ∧ q.roomId = r) ∧ op = .closeRoom r

theorem cleansUpOwnEntry_of_closesWholeRooms (hsim : sim.CreationReturns) (maxRooms : ℕ)
    (redis : R) {c : ServiceConfiguration sim R}
    (h : (GameService.system sim cfg B).Reachable
      ((roomProtocol cfg).guarded (fun _ => True) closesWholeRooms)
      (GameService.initState maxRooms redis) c) :
    CleansUpOwnEntry c ∧ ErasesAnsweredByDestroy B c := by
  obtain ⟨htracks, hview⟩ := tracks hsim h
  have howned := fun r => roomOwned_of_viewReachable (r := r) (fun _ _ _ _ _ hg => hg r) hview
  constructor
  · intro t q r hop _
    obtain ⟨φ, φ', hφ, heff⟩ := effect_of_aboutTo (B := B) hsim htracks hop
    generalize (GameService.exec B (.closeRoom r) c.shared).2 = s' at heff
    cases heff with
    | read hread => cases hread
    | cleanUp => exact (howned _).owner t ((Protocol.mem_threads hφ).mpr ⟨rfl, Or.inr rfl⟩)
  · intro t req op u r hop hroom herased hu hanswered
    obtain ⟨φ, φ', hφ, heff⟩ := effect_of_aboutTo (B := B) hsim htracks hop
    generalize (GameService.exec B op c.shared).2 = s' at heff herased
    cases heff with
    | @cleanUp q =>
      rw [RoomManager.mem_closeRoom] at herased
      obtain rfl : r = q.roomId := by
        by_contra hne
        exact herased ⟨hne, hroom⟩
      have hown := (howned _).owner t ((Protocol.mem_threads hφ).mpr ⟨rfl, Or.inr rfl⟩)
      obtain rfl : t = u := Option.some.inj (hown.symm.trans hu)
      obtain ⟨next, hpool⟩ := hop
      obtain ⟨req, hret⟩ := hanswered
      rw [hpool] at hret
      cases hret
    | @close q hmem =>
      rw [RoomManager.mem_closeRoom] at herased
      obtain rfl : r = q.roomId := by
        by_contra hne
        exact herased ⟨hne, hroom⟩
      exact ⟨⟨q, rfl, rfl⟩, rfl⟩
    | @insert q name players hne hnot hres =>
      exact absurd ((RoomManager.mem_createRoomWithId hne).mpr (Or.inr hroom)) herased
    | _ => exact absurd hroom herased

def aboutToCleanUp (c : ServiceConfiguration sim R) (t : ℕ) (r : String) : Bool :=
  match c.pool[t]? with
  | some ⟨.createRoom _, .call (.closeRoom roomId) _⟩ => roomId == r
  | _ => false

theorem exists_aboutTo_of_aboutToCleanUp {c : ServiceConfiguration sim R} {t : ℕ} {r : String}
    (h : aboutToCleanUp c t r = true) : ∃ q, c.AboutTo t (.createRoom q) (.closeRoom r) := by
  unfold aboutToCleanUp at h
  split at h
  · rename_i q roomId next hpool
    obtain rfl : roomId = r := by simpa using h
    exact ⟨q, next, hpool⟩
  · cases h

def createAnsweredTest (c : ServiceConfiguration sim R) (u : ℕ) : Bool :=
  match c.pool[u]? with
  | some ⟨_, .ret outcome⟩ =>
    decide (outcome = GameService.common .ok "" 0 "Room created successfully")
  | _ => false

theorem createAnswered_of_test {c : ServiceConfiguration sim R} {u : ℕ}
    (h : createAnsweredTest c u = true) : CreateAnswered c u := by
  unfold createAnsweredTest at h
  split at h
  · rename_i req outcome hpool
    obtain rfl := of_decide_eq_true h
    exact ⟨req, hpool⟩
  · cases h

def Sample.createOvertaken : List (Action Request) :=
  begin (create "r") ++ begin (destroy "r") ++ begin (create "r") ++ calls 0 3 ++ calls 1 4 ++
    calls 2 7 ++ calls 0 1

open Sample in
theorem overtaken_creation_cleansUp_answered_room :
    ∃ c, service.Reachable (fun _ _ => True) state c ∧ ¬ CleansUpOwnEntry c ∧
      ¬ ErasesAnsweredByDestroy (Store.backend scanAll) c := by
  obtain ⟨c, hreach, hcheck⟩ := System.exists_reachable_of_schedule (S := service) (s := state)
    createOvertaken
    (fun c => aboutToCleanUp c 0 "r" && decide ("r" ∈ c.shared.rooms.rooms.keys) &&
      decide (insertedBy "r" c.log = some 2) && createAnsweredTest c 2) (by decide +kernel)
  simp only [Bool.and_eq_true, decide_eq_true_eq, Finmap.mem_keys] at hcheck
  obtain ⟨⟨⟨habout, hroom⟩, howner⟩, hanswered⟩ := hcheck
  obtain ⟨q, hop⟩ := exists_aboutTo_of_aboutToCleanUp habout
  refine ⟨c, hreach, fun hown => ?_, fun hdestroy => ?_⟩
  · have := (hown 0 q "r" hop hroom).symm.trans howner
    cases this
  · have herased : "r" ∉ (c.shared.rooms.closeRoom "r").2.rooms := by
      simp [RoomManager.mem_closeRoom]
    obtain ⟨⟨q', hq', -⟩, -⟩ := hdestroy 0 _ _ 2 "r" hop hroom herased howner
      (createAnswered_of_test hanswered)
    cases hq'

def Sample.createInsideDestroy : List (Action Request) :=
  begin (create "r") ++ calls 0 7 ++ begin (destroy "r") ++ calls 1 1 ++ begin (create "r") ++
    calls 2 4

open Sample in
theorem cleansUpOwnEntry_after_createInsideDestroy :
    ∃ c, service.Reachable ((roomProtocol config).guarded (fun _ => True) closesWholeRooms) state c ∧
      aboutToCleanUp c 2 "r" = true ∧ CleansUpOwnEntry c ∧
      ErasesAnsweredByDestroy (Store.backend scanAll) c := by
  obtain ⟨c, hreach, hcheck⟩ := Protocol.exists_guarded_of_replay (S := service) (s := state)
    (P := roomProtocol config) (fun _ => true) (closesWholeRoomsTest config) (fun _ _ => trivial)
    (fun _ _ _ _ => closesWholeRooms_of_test) createInsideDestroy
    (fun c => aboutToCleanUp c 2 "r") (by decide +kernel)
  exact ⟨c, hreach, hcheck,
    cleansUpOwnEntry_of_closesWholeRooms (fun _ _ h => by cases h) 10 ∅ hreach⟩

end PokemonServer
