import PokemonServer.RoomCapacity

/-!
# The ledger of RoomManager

Every insertion into `rooms_`, every erasure and every update of `room_count_` is
counted. At any moment a room has been erased as often as it was inserted, or once less
if it is there; and outside the critical sections every insertion and every erasure has
been counted once. Readers inside their sections keep writers out.
-/

namespace PokemonServer
open Interleaving

structure Tally where
  inserted : List String
  erased : List String
  fetchAdds : ℕ
  fetchSubs : ℕ

namespace Tally

def empty : Tally := ⟨[], [], 0, 0⟩

def after (τ : Tally) : RoomOp → Tally
  | .insert roomId _ => { τ with inserted := roomId :: τ.inserted }
  | .erase roomId => { τ with erased := roomId :: τ.erased }
  | .fetchAdd => { τ with fetchAdds := τ.fetchAdds + 1 }
  | .fetchSub => { τ with fetchSubs := τ.fetchSubs + 1 }
  | _ => τ

def Settled (τ : Tally) : Prop :=
  τ.inserted.length = τ.fetchAdds ∧ τ.erased.length = τ.fetchSubs

/-- What must have happened before an operation: a room is inserted when it is not there
and erased when it is, and the counter is updated once for each. -/
def Due (τ : Tally) : RoomOp → Prop
  | .insert roomId _ => τ.inserted.count roomId = τ.erased.count roomId
  | .erase roomId => τ.inserted.count roomId = τ.erased.count roomId + 1
  | .fetchAdd => τ.inserted.length = τ.fetchAdds + 1
  | .fetchSub => τ.erased.length = τ.fetchSubs + 1
  | _ => True

end Tally

def LockPhase.Tallied (τ : Tally) : LockPhase → Prop
  | .outside | .shared => True
  | .inserted => τ.inserted.length = τ.fetchAdds + 1 ∧ τ.erased.length = τ.fetchSubs
  | .erased => τ.inserted.length = τ.fetchAdds ∧ τ.erased.length = τ.fetchSubs + 1
  | _ => τ.Settled

theorem LockPhase.tallied_of_not_exclusive {τ : Tally} {φ : LockPhase} (h : ¬ φ.Exclusive) :
    φ.Tallied τ := by
  cases φ with
  | outside | shared => trivial
  | _ => exact absurd trivial h

structure LockTally (τ : Tally) (s : LockedRooms) (phases : LockPhases) : Prop where
  rooms : ∀ roomId, τ.inserted.count roomId =
    τ.erased.count roomId + if roomId ∈ s.manager.rooms then 1 else 0
  knows : ∀ t call φ, phases t = some (call, φ) → φ.Tallied τ
  in_step : s.writer = false → τ.Settled

namespace LockTally
variable {maxRooms : ℕ} {τ τ' : Tally} {s s' : LockedRooms} {phases : LockPhases} {t : ℕ}
  {call : RoomCall} {φ φ' : LockPhase} {op : RoomOp}

theorem init (maxRooms : ℕ) : LockTally .empty (RoomLock.init maxRooms) fun _ => none := by
  refine ⟨fun _ => rfl, ?_, fun _ => ⟨rfl, rfl⟩⟩
  intro t call φ ht
  cases ht

theorem start (h : LockTally τ s phases) (call : RoomCall) :
    LockTally τ s (Function.update phases t (some (call, .outside))) :=
  ⟨h.rooms, Protocol.forall_update trivial fun u call' ψ _ hu => h.knows u call' ψ hu, h.in_step⟩

theorem uncounted (h : LockTally τ s phases)
    (hmem : ∀ r, r ∈ s'.manager.rooms ↔ r ∈ s.manager.rooms) (hφ' : φ'.Tallied τ)
    (hfree : s'.writer = false → τ.Settled) :
    LockTally τ s' (Function.update phases t (some (call, φ'))) := by
  refine ⟨?_, Protocol.forall_update hφ' fun u call' ψ _ hu => h.knows u call' ψ hu, hfree⟩
  intro roomId
  rw [h.rooms]
  simp only [hmem]

theorem counted (hlife : LockLife maxRooms s phases) (ht : phases t = some (call, φ))
    (hφ : φ.Exclusive) {m : RoomManager} (hφ' : φ'.Tallied τ')
    (hrooms : ∀ roomId, τ'.inserted.count roomId =
      τ'.erased.count roomId + if roomId ∈ m.rooms then 1 else 0) :
    LockTally τ' { s with manager := m } (Function.update phases t (some (call, φ'))) := by
  have hmem : t ∈ writers phases := (Protocol.mem_threads ht).mpr hφ
  have hlocked : s.writer = true := hlife.writer_iff.mpr ⟨t, hmem⟩
  refine ⟨hrooms, Protocol.forall_update hφ' fun u call' ψ hut hu => ?_, fun hfree => ?_⟩
  · refine LockPhase.tallied_of_not_exclusive fun hψ => hut ?_
    exact hlife.writers_subsingleton ((Protocol.mem_threads hu).mpr hψ) hmem
  · rw [hlocked] at hfree
    cases hfree

theorem after_of_not_exclusive {res : op.Res} (h : RoomLock.next φ op res = some φ')
    (hφ : ¬ φ.Exclusive) (τ : Tally) : τ.after op = τ := by
  cases φ with
  | outside | shared => cases op <;> first | rfl | cases h
  | _ => exact absurd trivial hφ

theorem after_of_locked {res : op.Res} (h : RoomLock.next .locked op res = some φ') (τ : Tally) :
    τ.after op = τ := by
  cases op <;> first | rfl | cases h

theorem effect (h : LockTally τ s phases) (hlife : LockLife maxRooms s phases)
    (ht : phases t = some (call, φ)) (henabled : RoomLock.enabled op s = true) {res : op.Res}
    (hnext : RoomLock.next φ op res = some φ') (heff : RoomLock.Effect s φ op φ' s') :
    LockTally (τ.after op) s' (Function.update phases t (some (call, φ'))) := by
  have hknows := h.knows t call φ ht
  have hlock := hlife.knows t call φ ht
  cases heff with
  | lock =>
    have hfree : s.writer = false ∧ s.readers = 0 := by simpa [RoomLock.enabled] using henabled
    refine h.uncounted (fun _ => .rfl) (h.in_step hfree.1) ?_
    intro hout
    cases hout
  | unlock => exact h.uncounted (fun _ => .rfl) trivial fun _ => hknows
  | readers n hφ hφ' =>
    rw [after_of_not_exclusive hnext hφ]
    exact h.uncounted (fun _ => .rfl) (LockPhase.tallied_of_not_exclusive hφ') h.in_step
  | setMaintaining b hφ =>
    exact h.uncounted (fun _ => .rfl) (LockPhase.tallied_of_not_exclusive hφ) h.in_step
  | read =>
    rw [after_of_locked hnext]
    exact h.uncounted (fun _ => .rfl) hknows h.in_step
  | notFull _ | present | absent _ | generate | found _ =>
    exact h.uncounted (fun _ => .rfl) hknows h.in_step
  | @insert roomId roomName maxPlayers _ =>
    refine counted hlife ht trivial ⟨congrArg Nat.succ hknows.1, hknows.2⟩ fun r => ?_
    have hr := h.rooms r
    by_cases hroom : r = roomId
    · subst hroom
      rw [if_neg hlock.2] at hr
      simp [Tally.after, hr]
    · simp only [Tally.after, List.count_cons_of_ne (Ne.symm hroom), Finmap.mem_insert, hroom,
        false_or]
      exact hr
  | fetchAdd =>
    exact counted hlife ht trivial ⟨hknows.1, hknows.2⟩ h.rooms
  | @erase roomId =>
    refine counted hlife ht trivial ⟨hknows.1, congrArg Nat.succ hknows.2⟩ fun r => ?_
    have hr := h.rooms r
    by_cases hroom : r = roomId
    · subst hroom
      rw [if_pos hlock.2] at hr
      simp [Tally.after, hr]
    · simp only [Tally.after, List.count_cons_of_ne (Ne.symm hroom), Finmap.mem_erase, ne_eq,
        hroom, not_false_eq_true, true_and]
      exact hr
  | fetchSub =>
    exact counted hlife ht trivial ⟨hknows.1, hknows.2⟩ h.rooms
  | tick =>
    refine h.uncounted (fun r => ?_) hknows h.in_step
    rw [← Finmap.mem_keys, ← Finmap.mem_keys, RoomManager.tickRoom_keys]

theorem due (h : LockTally τ s phases) (hlife : LockLife maxRooms s phases)
    (ht : phases t = some (call, φ)) {res : op.Res} (hnext : RoomLock.next φ op res = some φ') :
    τ.Due op := by
  have hknows := h.knows t call φ ht
  have hlock := hlife.knows t call φ ht
  cases op with
  | insert roomId room =>
    cases φ with
    | free key =>
      simp only [RoomLock.next, Option.ite_none_right_eq_some] at hnext
      obtain ⟨⟨rfl, -⟩, -⟩ := hnext
      exact (h.rooms roomId).trans (by rw [if_neg hlock.2, Nat.add_zero])
    | _ => cases hnext
  | erase roomId =>
    cases φ with
    | found key =>
      simp only [RoomLock.next, Option.ite_none_right_eq_some] at hnext
      obtain ⟨rfl, -⟩ := hnext
      exact (h.rooms roomId).trans (by rw [if_pos hlock.2])
    | _ => cases hnext
  | fetchAdd =>
    cases φ with
    | inserted => exact hknows.1
    | _ => cases hnext
  | fetchSub =>
    cases φ with
    | erased => exact hknows.2
    | _ => cases hnext
  | _ => trivial

end LockTally

def sharers (phases : LockPhases) : Set ℕ := Protocol.threads phases fun _ φ => φ = .shared

/-- The readers are counted, and there are none while a writer is inside. -/
structure ReadersCounted (s : LockedRooms) (phases : LockPhases) : Prop where
  count : ∃ inside : Finset ℕ, (inside : Set ℕ) = sharers phases ∧ inside.card = s.readers
  excluded : s.writer = true → s.readers = 0

namespace ReadersCounted
variable {s s' : LockedRooms} {phases : LockPhases} {t : ℕ} {call : RoomCall}
  {φ φ' : LockPhase} {op : RoomOp}

theorem init (maxRooms : ℕ) : ReadersCounted (RoomLock.init maxRooms) fun _ => none := by
  refine ⟨⟨∅, ?_, rfl⟩, nofun⟩
  rw [sharers, Protocol.threads_none]
  exact Finset.coe_empty

theorem start (h : ReadersCounted s phases) (hfresh : phases t = none) (call : RoomCall) :
    ReadersCounted s (Function.update phases t (some (call, .outside))) := by
  refine ⟨?_, h.excluded⟩
  rw [sharers, Protocol.threads_start hfresh nofun]
  exact h.count

theorem beside (h : ReadersCounted s phases) (ht : phases t = some (call, φ))
    (hshared : φ' = .shared ↔ φ = .shared) (hreaders : s'.readers = s.readers)
    (hwriter : s'.writer = true → s.readers = 0) :
    ReadersCounted s' (Function.update phases t (some (call, φ'))) := by
  refine ⟨?_, fun hw => hreaders.trans (hwriter hw)⟩
  rw [sharers, Protocol.threads_update_iff ht hshared, hreaders]
  exact h.count

theorem shared_iff_of_next {res : op.Res} (h : RoomLock.next φ op res = some φ')
    (henter : op ≠ .lockShared) (hleave : op ≠ .unlockShared) : φ' = .shared ↔ φ = .shared := by
  cases φ with
  | shared =>
    cases op with
    | unlockShared => exact absurd rfl hleave
    | _ =>
      cases h
      all_goals exact .rfl
  | outside | locked | roomy | inserted | erased =>
    cases op with
    | lockShared => exact absurd rfl henter
    | isFull | find _ =>
      cases h
      all_goals split <;> simp
    | _ =>
      cases h
      all_goals simp
  | free _ | found _ =>
    cases op with
    | insert _ _ | erase _ =>
      first
        | cases h
        | simp only [RoomLock.next, Option.ite_none_right_eq_some, Option.some.injEq] at h
          simp [← h.2]
    | _ => cases h

theorem effect (h : ReadersCounted s phases) (ht : phases t = some (call, φ))
    (henabled : RoomLock.enabled op s = true) {res : op.Res}
    (hnext : RoomLock.next φ op res = some φ') :
    ReadersCounted (RoomLock.exec op s).2 (Function.update phases t (some (call, φ'))) := by
  obtain ⟨inside, hinside, hcard⟩ := h.count
  cases op with
  | lockShared =>
    cases φ with
    | outside =>
      cases hnext
      have hnot : t ∉ inside := by
        rw [← Finset.mem_coe, hinside, sharers, Protocol.mem_threads ht]
        simp
      refine ⟨⟨insert t inside, ?_, ?_⟩, fun hw => ?_⟩
      · rw [sharers, Protocol.threads_update_pos (p := fun _ φ => φ = LockPhase.shared) rfl,
          Finset.coe_insert, hinside]
        rfl
      · rw [Finset.card_insert_of_notMem hnot, hcard]
        rfl
      · have hfree : s.writer = false := by simpa [RoomLock.enabled] using henabled
        cases hfree.symm.trans hw
    | _ => cases hnext
  | unlockShared =>
    cases φ with
    | shared =>
      cases hnext
      have hmem : t ∈ inside := by
        rw [← Finset.mem_coe, hinside, sharers, Protocol.mem_threads ht]
      refine ⟨⟨inside.erase t, ?_, ?_⟩, fun hw => ?_⟩
      · rw [sharers, Protocol.threads_update_neg (p := fun _ φ => φ = LockPhase.shared) (by simp),
          Finset.coe_erase, hinside]
        rfl
      · rw [Finset.card_erase_of_mem hmem, hcard]
        rfl
      · show s.readers - 1 = 0
        rw [h.excluded hw]
    | _ => cases hnext
  | lock =>
    cases φ with
    | outside =>
      cases hnext
      have hfree : s.writer = false ∧ s.readers = 0 := by simpa [RoomLock.enabled] using henabled
      exact h.beside ht (by simp) rfl fun _ => hfree.2
    | _ => cases hnext
  | unlock =>
    cases φ with
    | locked =>
      cases hnext
      refine h.beside ht (by simp) rfl ?_
      intro hw
      cases hw
    | _ => cases hnext
  | _ =>
    refine h.beside ht (shared_iff_of_next hnext ?_ ?_) rfl h.excluded
    all_goals
      intro hop
      cases hop

theorem free_of_shared (h : ReadersCounted s phases) (ht : phases t = some (call, .shared)) :
    s.writer = false := by
  obtain ⟨inside, hinside, hcard⟩ := h.count
  have hmem : t ∈ inside := by
    rw [← Finset.mem_coe, hinside, sharers, Protocol.mem_threads ht]
  have hpos := Finset.card_pos.mpr ⟨t, hmem⟩
  rw [Bool.eq_false_iff]
  intro hw
  have hnone := h.excluded hw
  omega

end ReadersCounted
end PokemonServer
