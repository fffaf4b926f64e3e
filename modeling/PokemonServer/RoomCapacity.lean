import PokemonServer.RoomLock

/-!
# The bounds of RoomManager under any interleaving

A thread inside the exclusive section knows how far `room_count_` is from the
number of rooms; outside it the two agree. The bounds themselves hold at every
moment, also between the two updates of a method.
-/

namespace PokemonServer
open Interleaving

structure RoomManager.Bounded (maxRooms : ℕ) (m : RoomManager) : Prop where
  maxRooms_eq : m.maxRooms = maxRooms
  card_le : m.rooms.keys.card ≤ maxRooms
  key_eq : ∀ key room, m.rooms.lookup key = some room → room.id = key
  players : ∀ key room, m.rooms.lookup key = some room →
    0 ≤ room.playerCount ∧ room.playerCount ≤ room.maxPlayers
  count_nonneg : 0 ≤ m.roomCount
  count_le : m.roomCount ≤ maxRooms

theorem Room.tick_cases (room : Room) :
    room.tick.id = room.id ∧ room.tick.maxPlayers = room.maxPlayers ∧
      (room.tick.playerCount = room.playerCount + 1 ∧ room.playerCount < room.maxPlayers ∨
        room.tick.playerCount = room.playerCount - 1 ∧ 0 < room.playerCount ∨
        room.tick.playerCount = room.playerCount) := by
  simp only [Room.tick]
  split_ifs with hjoin hleave
  · exact ⟨rfl, rfl, Or.inl ⟨rfl, hjoin.2⟩⟩
  · exact ⟨rfl, rfl, Or.inr (Or.inl ⟨rfl, hleave.2⟩)⟩
  · exact ⟨rfl, rfl, Or.inr (Or.inr rfl)⟩

theorem Room.tick_players {room : Room}
    (h : 0 ≤ room.playerCount ∧ room.playerCount ≤ room.maxPlayers) :
    0 ≤ room.tick.playerCount ∧ room.tick.playerCount ≤ room.tick.maxPlayers := by
  obtain ⟨-, hmax, hcount⟩ := room.tick_cases
  omega

namespace RoomManager.Bounded
variable {maxRooms : ℕ} {m : RoomManager}

theorem init (maxRooms : ℕ) : (RoomManager.init maxRooms).Bounded maxRooms where
  maxRooms_eq := rfl
  card_le := by simp [RoomManager.init]
  key_eq key room h := by simp [RoomManager.init] at h
  players key room h := by simp [RoomManager.init] at h
  count_nonneg := le_refl _
  count_le := by simp [RoomManager.init]

theorem insert (h : m.Bounded maxRooms) {key : String} {room : Room} (hid : room.id = key)
    (hplayers : 0 ≤ room.playerCount ∧ room.playerCount ≤ room.maxPlayers)
    (hcard : (m.rooms.insert key room).keys.card ≤ maxRooms) :
    ({ m with rooms := m.rooms.insert key room } : RoomManager).Bounded maxRooms where
  maxRooms_eq := h.maxRooms_eq
  card_le := hcard
  key_eq k r hr := by
    by_cases hk : k = key
    · subst hk
      rw [Finmap.lookup_insert] at hr
      cases hr
      exact hid
    · rw [Finmap.lookup_insert_of_ne _ hk] at hr
      exact h.key_eq k r hr
  players k r hr := by
    by_cases hk : k = key
    · subst hk
      rw [Finmap.lookup_insert] at hr
      cases hr
      exact hplayers
    · rw [Finmap.lookup_insert_of_ne _ hk] at hr
      exact h.players k r hr
  count_nonneg := h.count_nonneg
  count_le := h.count_le

theorem erase (h : m.Bounded maxRooms) (key : String) :
    ({ m with rooms := m.rooms.erase key } : RoomManager).Bounded maxRooms where
  maxRooms_eq := h.maxRooms_eq
  card_le := by
    have hle : (m.rooms.erase key).keys.card ≤ m.rooms.keys.card := by
      rw [Finmap.keys_erase]
      exact Finset.card_erase_le
    exact hle.trans h.card_le
  key_eq k r hr := by
    by_cases hk : k = key
    · rw [hk, Finmap.lookup_erase] at hr
      cases hr
    · rw [Finmap.lookup_erase_ne hk] at hr
      exact h.key_eq k r hr
  players k r hr := by
    by_cases hk : k = key
    · rw [hk, Finmap.lookup_erase] at hr
      cases hr
    · rw [Finmap.lookup_erase_ne hk] at hr
      exact h.players k r hr
  count_nonneg := h.count_nonneg
  count_le := h.count_le

theorem setCount (h : m.Bounded maxRooms) {n : ℤ} (hnonneg : 0 ≤ n) (hle : n ≤ maxRooms) :
    ({ m with roomCount := n } : RoomManager).Bounded maxRooms :=
  ⟨h.maxRooms_eq, h.card_le, h.key_eq, h.players, hnonneg, hle⟩

theorem setMaintenanceMode (h : m.Bounded maxRooms) (isMaintaining : Bool) :
    (m.setMaintenanceMode isMaintaining).Bounded maxRooms :=
  ⟨h.maxRooms_eq, h.card_le, h.key_eq, h.players, h.count_nonneg, h.count_le⟩

end RoomManager.Bounded

theorem RoomManager.tickRoom_keys (m : RoomManager) (roomId : String) :
    (m.tickRoom roomId).rooms.keys = m.rooms.keys := by
  unfold tickRoom
  split
  · rfl
  · rename_i room hroom
    have hmem : roomId ∈ m.rooms.keys := Finmap.mem_keys.mpr (Finmap.mem_of_lookup_eq_some hroom)
    rw [keys_insert, Finset.insert_eq_of_mem hmem]

theorem RoomManager.Bounded.tickRoom {maxRooms : ℕ} {m : RoomManager} (h : m.Bounded maxRooms)
    (roomId : String) : (m.tickRoom roomId).Bounded maxRooms := by
  have hkeys := m.tickRoom_keys roomId
  unfold RoomManager.tickRoom at hkeys ⊢
  split
  · exact h
  · rename_i room hroom
    simp only [hroom] at hkeys
    refine h.insert ?_ (Room.tick_players (h.players _ _ hroom)) ?_
    · rw [room.tick_cases.1]
      exact h.key_eq _ _ hroom
    · rw [hkeys]
      exact h.card_le

theorem RoomManager.tickRoom_roomCount (m : RoomManager) (roomId : String) :
    (m.tickRoom roomId).roomCount = m.roomCount := by
  unfold tickRoom
  split <;> rfl


inductive LockPhase where
  | outside
  | shared
  | locked
  | roomy
  | free (roomId : String)
  | inserted
  | found (roomId : String)
  | erased

def LockPhase.Exclusive : LockPhase → Prop
  | .outside | .shared => False
  | _ => True

namespace RoomLock

def next : LockPhase → (op : RoomOp) → op.Res → Option LockPhase
  | .outside, .lock, _ => some .locked
  | .outside, .lockShared, _ => some .shared
  | .outside, .setMaintaining _, _ | .outside, .isMaintaining, _
  | .outside, .loadRoomCount, _ => some .outside
  | .shared, .unlockShared, _ => some .outside
  | .shared, .isMaintaining, _ | .shared, .isFull, _ | .shared, .find _, _
  | .shared, .copyRooms, _ | .shared, .maxRooms, _ => some .shared
  | .locked, .unlock, _ => some .outside
  | .locked, .isMaintaining, _ | .locked, .iterate, _ | .locked, .tick _, _ => some .locked
  | .locked, .isFull, full => some (if full then .locked else .roomy)
  | .locked, .find roomId, room => some (if room.isSome then .found roomId else .locked)
  | .roomy, .find roomId, room => some (if room.isSome then .locked else .free roomId)
  | .roomy, .generateRoomId _, newId => some (.free newId)
  | .free roomId, .insert key room, _ =>
    if key = roomId ∧ room = newRoom roomId room.name room.maxPlayers ∧ 0 ≤ room.maxPlayers then
      some .inserted
    else none
  | .inserted, .fetchAdd, _ => some .locked
  | .found roomId, .erase key, _ => if key = roomId then some .erased else none
  | .erased, .fetchSub, _ => some .locked
  | _, _, _ => none

end RoomLock

def lockProtocol : Protocol RoomCall RoomOp RoomOp.Res LockPhase where
  start _ := .outside
  next _ := RoomLock.next
  final φ := φ = .outside

def RoomCall.NonnegPlayers : RoomCall → Prop
  | .createRoom _ maxPlayers _ | .createRoomWithId _ _ maxPlayers => 0 ≤ maxPlayers
  | _ => True

namespace RoomLock

def Any : (op : RoomOp) → op.Res → Prop := fun _ _ => True

theorem follows_unlockWith (call : RoomCall) (reply : RoomReply) :
    lockProtocol.Follows Any call .locked (unlockWith reply) := by
  intro _ _
  exact ⟨.outside, rfl, rfl⟩

theorem follows_unlockSharedWith (call : RoomCall) (reply : RoomReply) :
    lockProtocol.Follows Any call .shared (unlockSharedWith reply) := by
  intro _ _
  exact ⟨.outside, rfl, rfl⟩

theorem follows_addRoom (call : RoomCall) {roomId roomName : String} {maxPlayers : ℤ}
    (h : 0 ≤ maxPlayers) :
    lockProtocol.Follows Any call (.free roomId) (addRoom roomId roomName maxPlayers) := by
  intro _ _
  refine ⟨.inserted, by simp [lockProtocol, next, newRoom, h], fun _ _ => ?_⟩
  exact ⟨.locked, rfl, follows_unlockWith call _⟩

theorem follows_tickAll (call : RoomCall) (roomIds : List String) :
    lockProtocol.Follows Any call .locked (tickAll roomIds) := by
  induction roomIds with
  | nil => exact follows_unlockWith call _
  | cons roomId roomIds ih =>
    intro _ _
    exact ⟨.locked, rfl, ih⟩

theorem follows_code {call : RoomCall} (hcall : call.NonnegPlayers) :
    lockProtocol.Follows Any call .outside (code call) := by
  cases call with
  | createRoom roomName maxPlayers newId =>
    intro _ _
    refine ⟨.locked, rfl, fun maintaining _ => ⟨.locked, rfl, ?_⟩⟩
    cases maintaining with
    | true => exact follows_unlockWith _ _
    | false =>
    intro full _
    cases full with
    | true => exact ⟨.locked, rfl, follows_unlockWith _ _⟩
    | false =>
    refine ⟨.roomy, rfl, fun roomId _ => ⟨.free roomId, rfl, ?_⟩⟩
    exact follows_addRoom _ hcall
  | createRoomWithId roomId roomName maxPlayers =>
    intro _ _
    refine ⟨.locked, rfl, fun maintaining _ => ⟨.locked, rfl, ?_⟩⟩
    cases maintaining with
    | true => exact follows_unlockWith _ _
    | false =>
    intro full _
    cases full with
    | true => exact ⟨.locked, rfl, follows_unlockWith _ _⟩
    | false =>
    refine ⟨.roomy, rfl, fun room _ => ?_⟩
    cases room with
    | some room => exact ⟨.locked, rfl, follows_unlockWith _ _⟩
    | none => exact ⟨.free roomId, rfl, follows_addRoom _ hcall⟩
  | closeRoom roomId =>
    intro _ _
    refine ⟨.locked, rfl, fun room _ => ?_⟩
    cases room with
    | none => exact ⟨.locked, rfl, follows_unlockWith _ _⟩
    | some room =>
      refine ⟨.found roomId, rfl, fun _ _ => ?_⟩
      refine ⟨.erased, by simp [lockProtocol, next], fun _ _ => ?_⟩
      exact ⟨.locked, rfl, follows_unlockWith _ _⟩
  | updateRoomActivity =>
    intro _ _
    exact ⟨.locked, rfl, fun roomIds _ => ⟨.locked, rfl, follows_tickAll _ roomIds⟩⟩
  | canCreateRoom =>
    intro _ _
    refine ⟨.shared, rfl, fun maintaining _ => ⟨.shared, rfl, ?_⟩⟩
    cases maintaining with
    | true => exact follows_unlockSharedWith _ _
    | false =>
      intro full _
      exact ⟨.shared, rfl, follows_unlockSharedWith _ _⟩
  | getRoomStatus roomId =>
    intro _ _
    exact ⟨.shared, rfl, fun _ _ => ⟨.shared, rfl, follows_unlockSharedWith _ _⟩⟩
  | getAllRooms =>
    intro _ _
    exact ⟨.shared, rfl, fun _ _ => ⟨.shared, rfl, follows_unlockSharedWith _ _⟩⟩
  | getMaxRooms =>
    intro _ _
    exact ⟨.shared, rfl, fun _ _ => ⟨.shared, rfl, follows_unlockSharedWith _ _⟩⟩
  | getRoomCount | setMaintenanceMode _ | isInMaintenanceMode =>
    intro _ _
    exact ⟨.outside, rfl, rfl⟩

inductive Effect (s : LockedRooms) : LockPhase → RoomOp → LockPhase → LockedRooms → Prop
  | lock : Effect s .outside .lock .locked { s with writer := true }
  | unlock : Effect s .locked .unlock .outside { s with writer := false }
  | readers {φ φ' : LockPhase} {op : RoomOp} (n : ℕ) : ¬ φ.Exclusive → ¬ φ'.Exclusive →
      Effect s φ op φ' { s with readers := n }
  | setMaintaining {φ : LockPhase} (b : Bool) : ¬ φ.Exclusive →
      Effect s φ (.setMaintaining b) φ { s with manager := s.manager.setMaintenanceMode b }
  | read {op : RoomOp} : Effect s .locked op .locked s
  | notFull : s.manager.rooms.keys.card < s.manager.maxRooms → Effect s .locked .isFull .roomy s
  | present {roomId : String} : Effect s .roomy (.find roomId) .locked s
  | absent {roomId : String} : roomId ∉ s.manager.rooms →
      Effect s .roomy (.find roomId) (.free roomId) s
  | generate {newId : String} : Effect s .roomy (.generateRoomId newId) (.free newId) s
  | insert {roomId roomName : String} {maxPlayers : ℤ} : 0 ≤ maxPlayers →
      Effect s (.free roomId) (.insert roomId (newRoom roomId roomName maxPlayers)) .inserted
        { s with manager := { s.manager with
            rooms := s.manager.rooms.insert roomId (newRoom roomId roomName maxPlayers) } }
  | fetchAdd : Effect s .inserted .fetchAdd .locked
      { s with manager := { s.manager with roomCount := s.manager.roomCount + 1 } }
  | found {roomId : String} : roomId ∈ s.manager.rooms →
      Effect s .locked (.find roomId) (.found roomId) s
  | erase {roomId : String} : Effect s (.found roomId) (.erase roomId) .erased
      { s with manager := { s.manager with rooms := s.manager.rooms.erase roomId } }
  | fetchSub : Effect s .erased .fetchSub .locked
      { s with manager := { s.manager with roomCount := s.manager.roomCount - 1 } }
  | tick {roomId : String} : Effect s .locked (.tick roomId) .locked
      { s with manager := s.manager.tickRoom roomId }

theorem effect_of_next {s : LockedRooms} {φ φ' : LockPhase} {op : RoomOp}
    (h : next φ op (exec op s).1 = some φ') : Effect s φ op φ' (exec op s).2 := by
  cases φ with
  | outside =>
    cases op with
    | lock => cases h; exact .lock
    | lockShared => cases h; exact .readers _ id id
    | setMaintaining b => cases h; exact .setMaintaining b id
    | isMaintaining | loadRoomCount => cases h; exact .readers s.readers id id
    | _ => cases h
  | shared =>
    cases op with
    | unlockShared => cases h; exact .readers _ id id
    | isMaintaining | isFull | find roomId | copyRooms | maxRooms =>
      cases h
      exact .readers s.readers id id
    | _ => cases h
  | locked =>
    cases op with
    | unlock => cases h; exact .unlock
    | isMaintaining | iterate => cases h; exact .read
    | tick roomId => cases h; exact .tick
    | isFull =>
      by_cases hfull : s.manager.maxRooms ≤ s.manager.rooms.keys.card
      · simp only [next, exec, hfull, decide_true, if_true, Option.some.injEq] at h
        subst h
        exact .read
      · simp only [next, exec, hfull, decide_false, Bool.false_eq_true, if_false,
          Option.some.injEq] at h
        subst h
        exact .notFull (not_le.mp hfull)
    | find roomId =>
      by_cases hmem : roomId ∈ s.manager.rooms
      · simp only [next, exec, Finmap.lookup_isSome.mpr hmem, if_true, Option.some.injEq] at h
        subst h
        exact .found hmem
      · simp only [next, exec, Finmap.lookup_eq_none.mpr hmem, Option.isSome_none,
          Bool.false_eq_true, if_false, Option.some.injEq] at h
        subst h
        exact .read
    | _ => cases h
  | roomy =>
    cases op with
    | generateRoomId newId => cases h; exact .generate
    | find roomId =>
      by_cases hmem : roomId ∈ s.manager.rooms
      · simp only [next, exec, Finmap.lookup_isSome.mpr hmem, if_true, Option.some.injEq] at h
        subst h
        exact .present
      · simp only [next, exec, Finmap.lookup_eq_none.mpr hmem, Option.isSome_none,
          Bool.false_eq_true, if_false, Option.some.injEq] at h
        subst h
        exact .absent hmem
    | _ => cases h
  | free roomId =>
    cases op with
    | insert key room =>
      simp only [next, Option.ite_none_right_eq_some, Option.some.injEq] at h
      obtain ⟨⟨rfl, hroom, hplayers⟩, rfl⟩ := h
      rw [hroom]
      exact .insert hplayers
    | _ => cases h
  | inserted =>
    cases op with
    | fetchAdd => cases h; exact .fetchAdd
    | _ => cases h
  | found roomId =>
    cases op with
    | erase key =>
      simp only [next, Option.ite_none_right_eq_some, Option.some.injEq] at h
      obtain ⟨rfl, rfl⟩ := h
      exact .erase
    | _ => cases h
  | erased =>
    cases op with
    | fetchSub => cases h; exact .fetchSub
    | _ => cases h

end RoomLock

def LockPhase.Knows (m : RoomManager) : LockPhase → Prop
  | .outside | .shared => True
  | .locked => m.roomCount = m.rooms.keys.card
  | .roomy => m.roomCount = m.rooms.keys.card ∧ m.rooms.keys.card < m.maxRooms
  | .free roomId => (m.roomCount = m.rooms.keys.card ∧ m.rooms.keys.card < m.maxRooms) ∧
      roomId ∉ m.rooms
  | .inserted => m.roomCount + 1 = m.rooms.keys.card
  | .found roomId => m.roomCount = m.rooms.keys.card ∧ roomId ∈ m.rooms
  | .erased => m.roomCount = m.rooms.keys.card + 1

theorem LockPhase.knows_of_not_exclusive {m : RoomManager} {φ : LockPhase}
    (h : ¬ φ.Exclusive) : φ.Knows m := by
  cases φ with
  | outside | shared => trivial
  | _ => exact absurd trivial h

abbrev LockPhases := ℕ → Option (RoomCall × LockPhase)

def writers (phases : LockPhases) : Set ℕ := Protocol.threads phases fun _ φ => φ.Exclusive

structure LockLife (maxRooms : ℕ) (s : LockedRooms) (phases : LockPhases) : Prop where
  bounded : s.manager.Bounded maxRooms
  writer_iff : s.writer = true ↔ (writers phases).Nonempty
  writers_subsingleton : (writers phases).Subsingleton
  knows : ∀ t call φ, phases t = some (call, φ) → φ.Knows s.manager
  in_step : s.writer = false → s.manager.roomCount = s.manager.rooms.keys.card

namespace LockLife
variable {maxRooms : ℕ} {s : LockedRooms} {phases : LockPhases} {t : ℕ} {call : RoomCall}
  {φ φ' : LockPhase}

theorem init (maxRooms : ℕ) : LockLife maxRooms (RoomLock.init maxRooms) fun _ => none := by
  have hnone : writers (fun _ => none) = ∅ := Protocol.threads_none
  refine ⟨.init maxRooms, ?_, ?_, ?_, fun _ => rfl⟩
  · rw [hnone]
    exact iff_of_false Bool.false_ne_true Set.not_nonempty_empty
  · rw [hnone]
    exact Set.subsingleton_empty
  · intro t call φ ht
    cases ht

theorem start (h : LockLife maxRooms s phases) (hfresh : phases t = none) (call : RoomCall) :
    LockLife maxRooms s (Function.update phases t (some (call, .outside))) := by
  have hwriters : writers (Function.update phases t (some (call, .outside))) = writers phases :=
    Protocol.threads_start hfresh id
  refine ⟨h.bounded, ?_, ?_, ?_, h.in_step⟩
  · rw [hwriters]
    exact h.writer_iff
  · rw [hwriters]
    exact h.writers_subsingleton
  · exact Protocol.forall_update trivial fun u call' ψ _ hu => h.knows u call' ψ hu

theorem inside (h : LockLife maxRooms s phases) (ht : phases t = some (call, φ))
    (hφ : φ.Exclusive) (ψ : LockPhase) (hψ : ψ.Exclusive) {m : RoomManager} (hm : m.Bounded maxRooms)
    (hknows : ψ.Knows m) :
    LockLife maxRooms { s with manager := m } (Function.update phases t (some (call, ψ))) := by
  have hmem : t ∈ writers phases := (Protocol.mem_threads ht).mpr hφ
  have hwriters : writers (Function.update phases t (some (call, ψ))) = writers phases :=
    Protocol.threads_update_iff ht (iff_of_true hψ hφ)
  have hlocked : s.writer = true := h.writer_iff.mpr ⟨t, hmem⟩
  refine ⟨hm, ?_, ?_, ?_, ?_⟩
  · rw [hwriters]
    exact h.writer_iff
  · rw [hwriters]
    exact h.writers_subsingleton
  · refine Protocol.forall_update hknows fun u call' χ hut hu => ?_
    -- mutual exclusion: nobody else relies on the manager now
    refine LockPhase.knows_of_not_exclusive fun hχ => hut ?_
    exact h.writers_subsingleton ((Protocol.mem_threads hu).mpr hχ) hmem
  · intro hfree
    rw [hlocked] at hfree
    cases hfree

theorem beside (h : LockLife maxRooms s phases) (ht : phases t = some (call, φ))
    (hφ : ¬ φ.Exclusive) (hφ' : ¬ φ'.Exclusive) (b : Bool) (readers : ℕ) :
    LockLife maxRooms ⟨s.manager.setMaintenanceMode b, s.writer, readers⟩
      (Function.update phases t (some (call, φ'))) := by
  have hwriters : writers (Function.update phases t (some (call, φ'))) = writers phases :=
    Protocol.threads_update_iff ht (iff_of_false hφ' hφ)
  refine ⟨h.bounded.setMaintenanceMode b, ?_, ?_, ?_, h.in_step⟩
  · rw [hwriters]
    exact h.writer_iff
  · rw [hwriters]
    exact h.writers_subsingleton
  · refine Protocol.forall_update (LockPhase.knows_of_not_exclusive hφ') fun u call' ψ _ hu => ?_
    have hknows := h.knows u call' ψ hu
    cases ψ <;> exact hknows

theorem lock (h : LockLife maxRooms s phases) (hfree : s.writer = false) :
    LockLife maxRooms { s with writer := true }
      (Function.update phases t (some (call, .locked))) := by
  have hempty : writers phases = ∅ := by
    rw [← Set.not_nonempty_iff_eq_empty, ← h.writer_iff, hfree]
    exact Bool.false_ne_true
  have hwriters : writers (Function.update phases t (some (call, .locked))) = {t} := by
    rw [writers, Protocol.threads_update_pos trivial]
    exact (congrArg (insert t) hempty).trans (insert_empty_eq t)
  refine ⟨h.bounded, ?_, ?_, ?_, ?_⟩
  · rw [hwriters]
    exact iff_of_true rfl (Set.singleton_nonempty t)
  · rw [hwriters]
    exact Set.subsingleton_singleton
  · exact Protocol.forall_update (h.in_step hfree) fun u call' ψ _ hu => h.knows u call' ψ hu
  · intro hwriter
    cases hwriter

theorem unlock (h : LockLife maxRooms s phases) (ht : phases t = some (call, .locked)) :
    LockLife maxRooms { s with writer := false }
      (Function.update phases t (some (call, .outside))) := by
  have hmem : t ∈ writers phases := (Protocol.mem_threads ht).mpr trivial
  have hwriters : writers (Function.update phases t (some (call, .outside))) = ∅ := by
    rw [writers, Protocol.threads_update_neg id]
    have hsingle := h.writers_subsingleton.eq_singleton_of_mem hmem
    exact Set.sdiff_eq_empty.mpr (subset_of_eq hsingle)
  refine ⟨h.bounded, ?_, ?_, ?_, ?_⟩
  · rw [hwriters]
    exact iff_of_false Bool.false_ne_true Set.not_nonempty_empty
  · rw [hwriters]
    exact Set.subsingleton_empty
  · exact Protocol.forall_update trivial fun u call' ψ _ hu => h.knows u call' ψ hu
  · intro _
    exact h.knows t call .locked ht

theorem effect (h : LockLife maxRooms s phases) (ht : phases t = some (call, φ)) {op : RoomOp}
    (henabled : RoomLock.enabled op s = true) {s' : LockedRooms}
    (heff : RoomLock.Effect s φ op φ' s')
    (hfresh : ∀ newId, op = .generateRoomId newId → newId ∉ s.manager.rooms) :
    LockLife maxRooms s' (Function.update phases t (some (call, φ'))) := by
  have hknows := h.knows t call φ ht
  have hbounded := h.bounded
  cases heff with
  | lock =>
    have hfree : s.writer = false ∧ s.readers = 0 := by simpa [RoomLock.enabled] using henabled
    exact h.lock hfree.1
  | unlock => exact h.unlock ht
  | readers n hφ hφ' => exact h.beside ht hφ hφ' s.manager.isMaintaining n
  | setMaintaining b hφ => exact h.beside ht hφ hφ b s.readers
  | read => exact h.inside ht trivial .locked trivial hbounded hknows
  | notFull hlt => exact h.inside ht trivial .roomy trivial hbounded ⟨hknows, hlt⟩
  | present => exact h.inside ht trivial .locked trivial hbounded hknows.1
  | absent hnot => exact h.inside ht trivial (.free _) trivial hbounded ⟨hknows, hnot⟩
  | generate => exact h.inside ht trivial (.free _) trivial hbounded ⟨hknows, hfresh _ rfl⟩
  | @insert roomId roomName maxPlayers hplayers =>
    obtain ⟨⟨hcount, hlt⟩, hnot⟩ := hknows
    have hcard : (s.manager.rooms.insert roomId (newRoom roomId roomName maxPlayers)).keys.card =
        s.manager.rooms.keys.card + 1 := by
      rw [keys_insert, Finset.card_insert_of_notMem (fun hk => hnot (Finmap.mem_keys.mp hk))]
    have hmax := hbounded.maxRooms_eq
    refine h.inside ht trivial .inserted trivial (hbounded.insert rfl ⟨le_refl 0, hplayers⟩ ?_) ?_
    · rw [hcard]
      omega
    · show s.manager.roomCount + 1 = _
      rw [hcard, hcount]
      push_cast
      rfl
  | fetchAdd =>
    have hcount : s.manager.roomCount + 1 = s.manager.rooms.keys.card := hknows
    have hcard := hbounded.card_le
    have hnonneg := hbounded.count_nonneg
    exact h.inside ht trivial .locked trivial (hbounded.setCount (by omega) (by omega)) hcount
  | found hmem => exact h.inside ht trivial (.found _) trivial hbounded ⟨hknows, hmem⟩
  | @erase roomId =>
    obtain ⟨hcount, hmem⟩ := hknows
    have hcard : (s.manager.rooms.erase roomId).keys.card + 1 = s.manager.rooms.keys.card := by
      rw [Finmap.keys_erase]
      exact Finset.card_erase_add_one (Finmap.mem_keys.mpr hmem)
    refine h.inside ht trivial .erased trivial (hbounded.erase roomId) ?_
    show s.manager.roomCount = ((s.manager.rooms.erase roomId).keys.card : ℤ) + 1
    omega
  | fetchSub =>
    have hcount : s.manager.roomCount = (s.manager.rooms.keys.card : ℤ) + 1 := hknows
    have hcard := hbounded.card_le
    refine h.inside ht trivial .locked trivial (hbounded.setCount (by omega) (by omega)) ?_
    show s.manager.roomCount - 1 = (s.manager.rooms.keys.card : ℤ)
    omega
  | @tick roomId =>
    refine h.inside ht trivial .locked trivial (hbounded.tickRoom roomId) ?_
    show (s.manager.tickRoom roomId).roomCount = _
    rw [RoomManager.tickRoom_roomCount, RoomManager.tickRoom_keys]
    exact hknows

end LockLife

namespace RoomLock

abbrev LockConfiguration := Config LockedRooms RoomCall RoomOp RoomOp.Res RoomReply
abbrev LockView := View LockedRooms RoomCall RoomOp RoomOp.Res LockPhase

/-- GenerateRoomId returns an id that is not yet a key. -/
def generatesFreshIds (v : LockView) (_ : ℕ) (_ : RoomCall) : RoomOp → Prop
  | .generateRoomId newId => newId ∉ v.shared.manager.rooms
  | _ => True

variable {maxRooms : ℕ} {v : LockView} {c : LockConfiguration}

theorem lockLife_of_viewReachable
    (h : lockProtocol.ViewReachable system RoomCall.NonnegPlayers generatesFreshIds
      (init maxRooms) v) :
    LockLife maxRooms v.shared v.phases ∧
      ∀ (t : ℕ) (n : ℤ), ⟨t, .loadRoomCount, n⟩ ∈ v.log → 0 ≤ n ∧ n ≤ maxRooms := by
  induction h with
  | init =>
    refine ⟨.init maxRooms, ?_⟩
    intro t n hmem
    cases hmem
  | start _ hfresh _ ih => exact ⟨ih.1.start hfresh _, ih.2⟩
  | @op v t call φ φ' op _ ht henabled hguard hnext ih =>
    obtain ⟨hlife, hreads⟩ := ih
    refine ⟨hlife.effect ht henabled (effect_of_next hnext) ?_, ?_⟩
    · rintro newId rfl
      exact hguard
    · intro u n hmem
      rcases List.mem_cons.mp hmem with heq | hmem
      · cases heq
        exact ⟨hlife.bounded.count_nonneg, hlife.bounded.count_le⟩
      · exact hreads u n hmem

def insideWriters (c : LockConfiguration) : Set ℕ := writers (lockProtocol.view c).phases

structure Sound (maxRooms : ℕ) (c : LockConfiguration) : Prop where
  size_le : c.shared.manager.rooms.keys.card ≤ maxRooms
  key_eq : ∀ key room, c.shared.manager.rooms.lookup key = some room → room.id = key
  players : ∀ key room, c.shared.manager.rooms.lookup key = some room →
    0 ≤ room.playerCount ∧ room.playerCount ≤ room.maxPlayers
  writers_exclude : (insideWriters c).Subsingleton
  count_eq : insideWriters c = ∅ →
    c.shared.manager.roomCount = c.shared.manager.rooms.keys.card
  count_mem : 0 ≤ c.shared.manager.roomCount ∧ c.shared.manager.roomCount ≤ maxRooms
  answered : ∀ (t : ℕ) (n : ℤ), c.pool[t]? = some ⟨.getRoomCount, .ret (.count n)⟩ → 0 ≤ n ∧ n ≤ maxRooms

theorem sound_of_reachable (maxRooms : ℕ)
    (h : system.Reachable (lockProtocol.guarded RoomCall.NonnegPlayers generatesFreshIds)
      (init maxRooms) c) : Sound maxRooms c := by
  have hpossible : ∀ op s, Any op (system.exec op s).1 := fun _ _ => trivial
  have hview := (Protocol.tracks_of_reachable hpossible (fun _ => follows_code) h).2
  obtain ⟨hlife, hreads⟩ := lockLife_of_viewReachable hview
  refine ⟨hlife.bounded.card_le, hlife.bounded.key_eq, hlife.bounded.players,
    hlife.writers_subsingleton, ?_, ⟨hlife.bounded.count_nonneg, hlife.bounded.count_le⟩, ?_⟩
  · intro hempty
    have hfree : (lockProtocol.view c).shared.writer = false := by
      rw [Bool.eq_false_iff, Ne, hlife.writer_iff]
      exact Set.not_nonempty_iff_eq_empty.mpr hempty
    exact hlife.in_step hfree
  · intro t n hpool
    have hpath := (System.path_of_reachable h).2 t _ hpool
    obtain ⟨r, fs, hhistory, hrest⟩ := Path.call_ret_iff.mp hpath
    obtain ⟨-, hret⟩ := Path.ret_iff.mp hrest
    cases hret
    have hread : ⟨.loadRoomCount, n⟩ ∈ history t c.log := by
      rw [hhistory]
      exact List.mem_cons_self
    exact hreads t n (mem_history.mp hread)

def nonnegPlayersTest : RoomCall → Bool
  | .createRoom _ maxPlayers _ | .createRoomWithId _ _ maxPlayers => decide (0 ≤ maxPlayers)
  | _ => true

theorem nonnegPlayers_of_test {call : RoomCall} (h : nonnegPlayersTest call = true) :
    call.NonnegPlayers := by
  cases call with
  | createRoom roomName maxPlayers newId =>
    have hplayers : 0 ≤ maxPlayers := of_decide_eq_true h
    exact hplayers
  | createRoomWithId roomId roomName maxPlayers =>
    have hplayers : 0 ≤ maxPlayers := of_decide_eq_true h
    exact hplayers
  | _ => trivial

def generatesFreshIdsTest (c : LockConfiguration) (_ : ℕ) (_ : RoomCall) : RoomOp → Bool
  | .generateRoomId newId => decide (newId ∉ c.shared.manager.rooms.keys)
  | _ => true

theorem generatesFreshIds_of_test {c : LockConfiguration} {t : ℕ} {call : RoomCall} {op : RoomOp}
    (h : generatesFreshIdsTest c t call op = true) :
    generatesFreshIds (lockProtocol.view c) t call op := by
  cases op with
  | generateRoomId newId =>
    have hnot : newId ∉ c.shared.manager.rooms.keys := of_decide_eq_true h
    exact fun hmem => hnot (Finmap.mem_keys.mpr hmem)
  | _ => trivial

end RoomLock

def Sample.closingHalfDone : List (Action RoomCall) :=
  let steps (t n : ℕ) : List (Action RoomCall) := List.replicate n (.run t)
  [.start (.createRoom "a" 2 "id-0"), .start (.createRoomWithId "r" "b" 4)] ++ steps 0 7 ++
    steps 1 7 ++ [.start .updateRoomActivity] ++ steps 2 5 ++ [.start (.closeRoom "r")] ++
    steps 3 3 ++ [.start .getRoomCount] ++ steps 4 1

namespace RoomLock
open Sample

theorem sound_between_updates :
    ∃ c, system.Reachable (lockProtocol.guarded RoomCall.NonnegPlayers generatesFreshIds)
        (init 2) c ∧ c.shared.manager.rooms.keys = {"id-0"} ∧ c.shared.manager.roomCount = 2 ∧
      Sound 2 c := by
  obtain ⟨c, hreach, hcheck⟩ := Protocol.exists_guarded_of_replay (S := system) (s := init 2)
    (P := lockProtocol) nonnegPlayersTest generatesFreshIdsTest (fun _ => nonnegPlayers_of_test)
    (fun _ _ _ _ => generatesFreshIds_of_test) closingHalfDone
    (fun c => decide (c.shared.manager.rooms.keys = {"id-0"}) &&
      decide (c.shared.manager.roomCount = 2)) (by decide +kernel)
  simp only [Bool.and_eq_true, decide_eq_true_eq] at hcheck
  exact ⟨c, hreach, hcheck.1, hcheck.2, sound_of_reachable 2 hreach⟩

end RoomLock
end PokemonServer
