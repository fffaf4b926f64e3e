import PokemonServer.RoomProtocol

/-!
# The life of one room in the two maps

`Lifecycle room session half closing` relates the two entries of one room to the
handlers that have done half of a creation (inserted, neither given a session nor
closed again) or half of a destruction (closed, session not destroyed). A room
with neither kind of handler has both entries or none. The relation survives
every step except one: the close, by a destruction, of a half-created room.
-/

namespace PokemonServer
open Interleaving RoomProtocol

structure Lifecycle {ι : Type} (room session : Prop) (half closing : Set ι) : Prop where
  half_subsingleton : half.Subsingleton
  closing_subsingleton : closing.Subsingleton
  room_of_half : half.Nonempty → room
  session_of_closing : closing.Nonempty → session
  live_iff : room ∧ ¬ half.Nonempty ↔ session ∧ ¬ closing.Nonempty

namespace Lifecycle
variable {ι : Type} {room session : Prop} {half closing : Set ι} {t : ι}

theorem empty (hroom : ¬ room) (hsession : ¬ session) : Lifecycle room session (∅ : Set ι) ∅ := by
  constructor <;> simp [hroom, hsession]

theorem half_eq_empty (h : Lifecycle room session half closing) (hroom : ¬ room) : half = ∅ :=
  Set.not_nonempty_iff_eq_empty.mp fun hn => hroom (h.room_of_half hn)

theorem insert (h : Lifecycle room session half closing) (hroom : ¬ room) :
    Lifecycle True session (Insert.insert t half) closing where
  half_subsingleton := by simp [h.half_eq_empty hroom]
  closing_subsingleton := h.closing_subsingleton
  room_of_half _ := trivial
  session_of_closing := h.session_of_closing
  live_iff := by
    have := h.live_iff
    have hne : (Insert.insert t half).Nonempty := ⟨t, Set.mem_insert _ _⟩
    tauto

theorem openSession (h : Lifecycle room session half closing) (ht : t ∈ half)
    (hsession : ¬ session) : Lifecycle room True (half \ {t}) closing := by
  have hhalf : half \ {t} = ∅ := by
    rw [h.half_subsingleton.eq_singleton_of_mem ht]
    simp
  have hclosing : ¬ closing.Nonempty := fun hn => hsession (h.session_of_closing hn)
  exact ⟨by simp [hhalf], h.closing_subsingleton, by simp [hhalf], fun _ => trivial,
    by simp [hhalf, hclosing, h.room_of_half ⟨t, ht⟩]⟩

theorem cleanUp (h : Lifecycle room session half closing) (ht : t ∈ half) :
    Lifecycle False session (half \ {t}) closing := by
  have hhalf : half \ {t} = ∅ := by
    rw [h.half_subsingleton.eq_singleton_of_mem ht]
    simp
  have hlive : ¬ (session ∧ ¬ closing.Nonempty) := fun hs => (h.live_iff.mpr hs).2 ⟨t, ht⟩
  exact ⟨by simp [hhalf], h.closing_subsingleton, by simp [hhalf], h.session_of_closing,
    by simpa using hlive⟩

theorem close (h : Lifecycle room session half closing) (hroom : room) (hhalf : ¬ half.Nonempty) :
    Lifecycle False session half (Insert.insert t closing) := by
  obtain ⟨hsession, hclosing⟩ := h.live_iff.mp ⟨hroom, hhalf⟩
  have hempty : closing = ∅ := Set.not_nonempty_iff_eq_empty.mp hclosing
  exact ⟨h.half_subsingleton, by simp [hempty], fun hn => hhalf hn, fun _ => hsession,
    by simp [hempty]⟩

theorem dropSession (h : Lifecycle room session half closing) (ht : t ∈ closing) :
    Lifecycle room False half (closing \ {t}) := by
  have hclosing : closing \ {t} = ∅ := by
    rw [h.closing_subsingleton.eq_singleton_of_mem ht]
    simp
  have hlive : ¬ (room ∧ ¬ half.Nonempty) := fun hr => (h.live_iff.mp hr).2 ⟨t, ht⟩
  exact ⟨h.half_subsingleton, by simp [hclosing], h.room_of_half, by simp [hclosing],
    by simpa using hlive⟩

end Lifecycle

/-- A creation of `r` that has inserted the room and neither made its session
nor closed it again. -/
def Half (r : String) (req : Request) (φ : Phase) : Prop :=
  req.roomId = r ∧ (φ = .creating ∨ φ = .failing)

/-- A destruction of `r` that has closed the room and not yet destroyed its session. -/
def Closing (r : String) (req : Request) (φ : Phase) : Prop :=
  req.roomId = r ∧ φ = .closing

instance (r : String) (req : Request) (φ : Phase) : Decidable (Half r req φ) :=
  inferInstanceAs (Decidable (_ ∧ _))

variable {sim : Simulator} {R : Type} {B : RedisBackend R} {cfg : ServiceConfig}

abbrev Phases := ℕ → Option (Request × Phase)

def RoomLife (r : String) (s : ServerState sim R) (phases : Phases) : Prop :=
  Lifecycle (r ∈ s.rooms.rooms) (r ∈ s.engine.sessions) (Protocol.threads phases (Half r))
    (Protocol.threads phases (Closing r))

/-- The condition that a destruction of `r` does not close a half-created room. -/
def NoHalfClosed (r : String) (phases : Phases) (req : Request) (op : ServerOp) : Prop :=
  req = .destroyRoom ⟨r⟩ → op = .closeRoom r → ¬ (Protocol.threads phases (Half r)).Nonempty

theorem RoomLife.congr {r : String} {s s' : ServerState sim R} {phases phases' : Phases}
    (h : RoomLife r s phases) (hroom : r ∈ s'.rooms.rooms ↔ r ∈ s.rooms.rooms)
    (hsession : r ∈ s'.engine.sessions ↔ r ∈ s.engine.sessions)
    (hhalf : Protocol.threads phases' (Half r) = Protocol.threads phases (Half r))
    (hclosing : Protocol.threads phases' (Closing r) = Protocol.threads phases (Closing r)) :
    RoomLife r s' phases' := by
  unfold RoomLife
  rw [hroom, hsession, hhalf, hclosing]
  exact h

theorem effect_other_room {s s' : ServerState sim R} {req : Request} {φ φ' : Phase}
    {op : ServerOp} {r : String} (h : Effect cfg B s req φ op φ' s') (hr : req.roomId ≠ r) :
    (r ∈ s'.rooms.rooms ↔ r ∈ s.rooms.rooms) ∧
      (r ∈ s'.engine.sessions ↔ r ∈ s.engine.sessions) := by
  cases h with
  | insert hne hnot hres =>
    refine ⟨?_, Iff.rfl⟩
    rw [RoomManager.mem_createRoomWithId hne]
    exact or_iff_right fun he => hr he.1.symm
  | @openSession q init session hsession hnot =>
    have hq : q.roomId ≠ r := hr
    exact ⟨Iff.rfl, by simp [Ne.symm hq]⟩
  | accepted hturn hacc => exact ⟨Iff.rfl, BattleEngine.mem_processTurn⟩
  | rejected hturn => exact ⟨Iff.rfl, BattleEngine.mem_processTurn⟩
  | cleanUp | close hmem =>
    refine ⟨?_, Iff.rfl⟩
    rw [RoomManager.mem_closeRoom]
    exact and_iff_right (Ne.symm hr)
  | @dropSession q =>
    have hq : q.roomId ≠ r := hr
    exact ⟨Iff.rfl, by simp [BattleEngine.destroySession, Ne.symm hq]⟩
  | _ => exact ⟨Iff.rfl, Iff.rfl⟩

theorem RoomLife.effect {r : String} {s s' : ServerState sim R} {phases : Phases} {t : ℕ}
    {req : Request} {φ φ' : Phase} {op : ServerOp} (h : RoomLife r s phases)
    (ht : phases t = some (req, φ)) (heff : Effect cfg B s req φ op φ' s')
    (hguard : NoHalfClosed r phases req op) :
    RoomLife r s' (Function.update phases t (some (req, φ'))) := by
  by_cases hr : req.roomId = r
  swap
  · obtain ⟨hroom, hsession⟩ := effect_other_room heff hr
    exact h.congr hroom hsession (Protocol.threads_update_iff ht (by simp [Half, hr]))
      (Protocol.threads_update_iff ht (by simp [Closing, hr]))
  subst hr
  have hhalf : t ∈ Protocol.threads phases (Half req.roomId) ↔ φ = .creating ∨ φ = .failing := by
    simp [Protocol.mem_threads ht, Half]
  have hclosing : t ∈ Protocol.threads phases (Closing req.roomId) ↔ φ = .closing := by
    simp [Protocol.mem_threads ht, Closing]
  cases heff with
  | @insert q name players hne hnot hres =>
    have := Lifecycle.insert (t := t) h hnot
    unfold RoomLife
    rw [Protocol.threads_update_pos (by simp [Half]),
      Protocol.threads_update_iff ht (by simp [Closing]), RoomManager.mem_createRoomWithId hne]
    simpa [hres, hne, Request.roomId] using this
  | @openSession q init session hsession hnot =>
    have := Lifecycle.openSession h (hhalf.mpr (by simp)) hnot
    unfold RoomLife
    rw [Protocol.threads_update_neg (by simp [Half]),
      Protocol.threads_update_iff ht (by simp [Closing])]
    simpa [Request.roomId] using this
  | @cleanUp q =>
    have := Lifecycle.cleanUp h (hhalf.mpr (by simp))
    unfold RoomLife
    rw [Protocol.threads_update_neg (by simp [Half]),
      Protocol.threads_update_iff ht (by simp [Closing]), RoomManager.mem_closeRoom]
    simpa [Request.roomId] using this
  | @close q hmem =>
    have := Lifecycle.close (t := t) h hmem (hguard rfl rfl)
    unfold RoomLife
    rw [Protocol.threads_update_iff ht (by simp [Half]),
      Protocol.threads_update_pos (by simp [Closing]), RoomManager.mem_closeRoom]
    simpa [Request.roomId] using this
  | @dropSession q =>
    have := Lifecycle.dropSession h (hclosing.mpr rfl)
    unfold RoomLife
    rw [Protocol.threads_update_iff ht (by simp [Half]),
      Protocol.threads_update_neg (by simp [Closing])]
    simpa [Request.roomId, BattleEngine.destroySession] using this
  | accepted hturn hacc | rejected hturn =>
    exact h.congr Iff.rfl BattleEngine.mem_processTurn
      (Protocol.threads_update_iff ht (by simp [Half]))
      (Protocol.threads_update_iff ht (by simp [Closing]))
  | disconnected hc hφ =>
    refine h.congr Iff.rfl Iff.rfl (Protocol.threads_update_iff ht ?_)
      (Protocol.threads_update_iff ht ?_) <;>
    rcases hφ with rfl | ⟨data, rfl⟩ | rfl <;> simp [Half, Closing]
  | _ =>
    exact h.congr Iff.rfl Iff.rfl (Protocol.threads_update_iff ht (by simp [Half]))
      (Protocol.threads_update_iff ht (by simp [Closing]))

end PokemonServer
