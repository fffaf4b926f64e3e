import PokemonServer.Interleaving.Completion
import PokemonServer.Interleaving.Refinement
import PokemonServer.Interleaving.SharedMutex
import PokemonServer.RoomLock

/-!
# What the lock of RoomManager makes atomic

Over the methods of `RoomLock`, step by step, stands a manager whose methods take
effect at once. The maintenance flag is not protected by the lock, so the two creations
and CanCreateRoom remain two operations: the flag is read, then the rest is done. A
method commits where its last access to `rooms_` or `room_count_` is.
-/

namespace PokemonServer
open Interleaving

inductive AtomicOp where
  | readFlag
  | method (call : RoomCall)
  | pastFlag (call : RoomCall)

abbrev AtomicOp.Res : AtomicOp → Type
  | .readFlag => Bool
  | _ => RoomReply

/-- The answer in maintenance of a method that asks for it first. -/
def RoomCall.refusal : RoomCall → Option RoomReply
  | .createRoom _ _ _ | .createRoomWithId _ _ _ => some (.roomId "")
  | .canCreateRoom => some (.bool false)
  | _ => none

namespace AtomicRooms

def exec : (op : AtomicOp) → RoomManager → op.Res × RoomManager
  | .readFlag, m => (m.isMaintaining, m)
  | .method call, m => call.apply m
  | .pastFlag call, m =>
    let r := call.apply (m.setMaintenanceMode false)
    (r.1, r.2.setMaintenanceMode m.isMaintaining)

def code (call : RoomCall) : Prog AtomicOp AtomicOp.Res RoomReply :=
  match call.refusal with
  | some refusal => do
    if ← .op AtomicOp.readFlag then
      return refusal
    else
      .op (AtomicOp.pastFlag call)
  | none => .op (AtomicOp.method call)

def system : System RoomManager RoomCall AtomicOp AtomicOp.Res RoomReply where
  code := code
  exec := exec

end AtomicRooms

def tickIn (rooms : Rooms) (roomId : String) : Rooms :=
  match rooms.lookup roomId with
  | none => rooms
  | some room => rooms.insert roomId room.tick

theorem RoomManager.tickRoom_eq (m : RoomManager) (roomId : String) :
    m.tickRoom roomId = { m with rooms := tickIn m.rooms roomId } := by
  unfold tickRoom tickIn
  cases m.rooms.lookup roomId <;> rfl

theorem RoomManager.foldl_tickRoom (m : RoomManager) (roomIds : List String) :
    roomIds.foldl RoomManager.tickRoom m = { m with rooms := roomIds.foldl tickIn m.rooms } := by
  induction roomIds generalizing m with
  | nil => rfl
  | cons roomId roomIds ih => rw [List.foldl_cons, List.foldl_cons, ih, tickRoom_eq]

def RoomCall.Adds (m : RoomManager) (room : Room) : RoomCall → Prop
  | .createRoom roomName maxPlayers newId =>
    m.rooms.keys.card < m.maxRooms ∧ room = newRoom newId roomName maxPlayers
  | .createRoomWithId roomId roomName maxPlayers =>
    m.rooms.keys.card < m.maxRooms ∧ roomId ∉ m.rooms ∧
      room = newRoom roomId roomName maxPlayers
  | _ => False

theorem RoomCall.Adds.exec {m : RoomManager} {room : Room} {call : RoomCall}
    (h : call.Adds m room) : AtomicRooms.exec (.pastFlag call) m = (.roomId room.id, { m with
      rooms := m.rooms.insert room.id room
      roomCount := m.roomCount + 1 }) := by
  cases call with
  | createRoom roomName maxPlayers newId =>
    obtain ⟨hcard, rfl⟩ := h
    simp [AtomicRooms.exec, RoomCall.apply, RoomManager.createRoom,
      RoomManager.setMaintenanceMode, not_le.mpr hcard, newRoom]
  | createRoomWithId roomId roomName maxPlayers =>
    obtain ⟨hcard, hnot, rfl⟩ := h
    simp [AtomicRooms.exec, RoomCall.apply, RoomManager.createRoomWithId,
      RoomManager.setMaintenanceMode, not_le.mpr hcard, hnot, newRoom]
  | _ => exact h.elim

theorem AtomicRooms.exec_full {m : RoomManager} {call : RoomCall}
    (hcall : call.refusal = some (.roomId "")) (hfull : m.maxRooms ≤ m.rooms.keys.card) :
    exec (.pastFlag call) m = (.roomId "", m) := by
  cases call with
  | createRoom roomName maxPlayers newId =>
    simp [exec, RoomCall.apply, RoomManager.createRoom, RoomManager.setMaintenanceMode, hfull]
  | createRoomWithId roomId roomName maxPlayers =>
    simp [exec, RoomCall.apply, RoomManager.createRoomWithId, RoomManager.setMaintenanceMode, hfull]
  | _ => cases hcall

theorem AtomicRooms.exec_taken {m : RoomManager} {roomId : String} (roomName : String)
    (maxPlayers : ℤ) (hmem : roomId ∈ m.rooms) :
    exec (.pastFlag (.createRoomWithId roomId roomName maxPlayers)) m = (.roomId "", m) := by
  by_cases hfull : m.maxRooms ≤ m.rooms.keys.card
  · exact exec_full rfl hfull
  · simp [exec, RoomCall.apply, RoomManager.createRoomWithId, RoomManager.setMaintenanceMode,
      hfull, hmem]

/-- Where a thread is in a method, and what it has chosen to do. -/
inductive LockStage where
  | idle
  | sharing
  | sharingOpen
  | shared
  | locked
  | asked
  | roomy
  | chosen (call : RoomCall) (room : Room)
  | inserted (call : RoomCall) (room : Room)
  | found (roomId : String)
  | erased (roomId : String)
  | ticking (done rest : List String)
  | leaving

namespace LockStage

def own : LockStage → Ownership
  | .idle => .none
  | .sharing | .sharingOpen | .shared => .shared
  | _ => .exclusive

inductive Step : LockStage → Exchange RoomOp RoomOp.Res → LockStage →
    Option (Exchange AtomicOp AtomicOp.Res) → Prop
  | loadRoomCount (n : ℤ) :
      Step .idle ⟨.loadRoomCount, n⟩ .idle (some ⟨.method .getRoomCount, .count n⟩)
  | setMaintaining (b : Bool) : Step .idle ⟨.setMaintaining b, ()⟩ .idle
      (some ⟨.method (.setMaintenanceMode b), .done⟩)
  | isMaintaining (b : Bool) :
      Step .idle ⟨.isMaintaining, b⟩ .idle (some ⟨.method .isInMaintenanceMode, .bool b⟩)
  | lockShared : Step .idle ⟨.lockShared, ()⟩ .sharing none
  | status (roomId : String) (room : Option Room) : Step .sharing ⟨.find roomId, room⟩ .shared
      (some ⟨.method (.getRoomStatus roomId), .status room⟩)
  | copyRooms (rooms : Rooms) :
      Step .sharing ⟨.copyRooms, rooms⟩ .shared (some ⟨.method .getAllRooms, .rooms rooms⟩)
  | maxRooms (n : ℕ) :
      Step .sharing ⟨.maxRooms, n⟩ .shared (some ⟨.method .getMaxRooms, .capacity n⟩)
  | askShared (b : Bool) : Step .sharing ⟨.isMaintaining, b⟩
      (if b then .shared else .sharingOpen) (some ⟨.readFlag, b⟩)
  | size (full : Bool) : Step .sharingOpen ⟨.isFull, full⟩ .shared
      (some ⟨.pastFlag .canCreateRoom, .bool !full⟩)
  | unlockShared : Step .shared ⟨.unlockShared, ()⟩ .idle none
  | lock : Step .idle ⟨.lock, ()⟩ .locked none
  | ask (b : Bool) : Step .locked ⟨.isMaintaining, b⟩
      (if b then .leaving else .asked) (some ⟨.readFlag, b⟩)
  | full {call : RoomCall} : call.refusal = some (.roomId "") →
      Step .asked ⟨.isFull, true⟩ .leaving (some ⟨.pastFlag call, .roomId ""⟩)
  | roomy : Step .asked ⟨.isFull, false⟩ .roomy none
  | taken (roomId roomName : String) (maxPlayers : ℤ) (room : Room) :
      Step .roomy ⟨.find roomId, some room⟩ .leaving
        (some ⟨.pastFlag (.createRoomWithId roomId roomName maxPlayers), .roomId ""⟩)
  | absent (roomId roomName : String) (maxPlayers : ℤ) : Step .roomy ⟨.find roomId, none⟩
      (.chosen (.createRoomWithId roomId roomName maxPlayers)
        (newRoom roomId roomName maxPlayers)) none
  | generate (newId roomName : String) (maxPlayers : ℤ) :
      Step .roomy ⟨.generateRoomId newId, newId⟩
        (.chosen (.createRoom roomName maxPlayers newId) (newRoom newId roomName maxPlayers)) none
  | insert (call : RoomCall) (room : Room) :
      Step (.chosen call room) ⟨.insert room.id room, ()⟩ (.inserted call room) none
  | fetchAdd (call : RoomCall) (room : Room) : Step (.inserted call room) ⟨.fetchAdd, ()⟩ .leaving
      (some ⟨.pastFlag call, .roomId room.id⟩)
  | missing (roomId : String) : Step .locked ⟨.find roomId, none⟩ .leaving
      (some ⟨.method (.closeRoom roomId), .bool false⟩)
  | found (roomId : String) (room : Room) :
      Step .locked ⟨.find roomId, some room⟩ (.found roomId) none
  | erase (roomId : String) : Step (.found roomId) ⟨.erase roomId, ()⟩ (.erased roomId) none
  | fetchSub (roomId : String) : Step (.erased roomId) ⟨.fetchSub, ()⟩ .leaving
      (some ⟨.method (.closeRoom roomId), .bool true⟩)
  | iterate (roomIds : List String) :
      Step .locked ⟨.iterate, roomIds⟩ (.ticking [] roomIds) none
  | tick (done : List String) (roomId : String) (rest : List String) :
      Step (.ticking done (roomId :: rest)) ⟨.tick roomId, ()⟩ (.ticking (done ++ [roomId]) rest) none
  | ticked (done : List String) : Step (.ticking done []) ⟨.unlock, ()⟩ .idle
      (some ⟨.method .updateRoomActivity, .done⟩)
  | unlock : Step .leaving ⟨.unlock, ()⟩ .idle none

end LockStage

/-- GenerateRoomId returns the id it is said to return. -/
def RoomOp.Possible : (op : RoomOp) → op.Res → Prop
  | .generateRoomId newId, id => id = newId
  | _, _ => True

def lockDiscipline : Discipline AtomicOp AtomicOp.Res RoomOp RoomOp.Res LockStage where
  idle := .idle
  possible := RoomOp.Possible
  step := LockStage.Step

namespace RoomLock
open Discipline

theorem unlockWith_mirrors (reply : RoomReply) :
    lockDiscipline.Mirrors .leaving (unlockWith reply) (.ret reply) :=
  .silent fun _ _ => ⟨.idle, .unlock, .ret reply⟩

theorem unlockSharedWith_mirrors (reply : RoomReply) :
    lockDiscipline.Mirrors .shared (unlockSharedWith reply) (.ret reply) :=
  .silent fun _ _ => ⟨.idle, .unlockShared, .ret reply⟩

theorem addRoom_mirrors (call : RoomCall) (roomId roomName : String) (maxPlayers : ℤ) :
    lockDiscipline.Mirrors (.chosen call (newRoom roomId roomName maxPlayers))
      (addRoom roomId roomName maxPlayers) (.op (AtomicOp.pastFlag call)) := by
  refine .silent fun _ _ => ⟨_, .insert call (newRoom roomId roomName maxPlayers), ?_⟩
  exact .commit fun _ _ => ⟨.leaving, _, .fetchAdd call _, unlockWith_mirrors _⟩

theorem tickAll_mirrors (done rest : List String) :
    lockDiscipline.Mirrors (.ticking done rest) (tickAll rest)
      (.op (AtomicOp.method .updateRoomActivity)) := by
  induction rest generalizing done with
  | nil => exact .commit fun _ _ => ⟨.idle, _, .ticked done, .ret _⟩
  | cons roomId rest ih => exact .silent fun _ _ => ⟨_, .tick done roomId rest, ih _⟩

theorem code_mirrors (call : RoomCall) :
    lockDiscipline.Mirrors .idle (code call) (AtomicRooms.code call) := by
  cases call with
  | createRoom roomName maxPlayers newId =>
    refine .silent fun _ _ => ⟨.locked, .lock, .commit fun maintaining _ => ?_⟩
    refine ⟨_, maintaining, .ask maintaining, ?_⟩
    cases maintaining with
    | true => exact unlockWith_mirrors _
    | false =>
    intro full _
    cases full with
    | true =>
      exact ⟨.leaving, some ⟨_, _⟩, _, .full rfl, .cons .nil, unlockWith_mirrors _⟩
    | false =>
      refine ⟨.roomy, none, _, .roomy, .nil, .silent fun roomId hroomId => ?_⟩
      have hid : newId = roomId := Eq.symm hroomId
      subst hid
      exact ⟨_, .generate newId roomName maxPlayers, addRoom_mirrors _ _ _ _⟩
  | createRoomWithId roomId roomName maxPlayers =>
    refine .silent fun _ _ => ⟨.locked, .lock, .commit fun maintaining _ => ?_⟩
    refine ⟨_, maintaining, .ask maintaining, ?_⟩
    cases maintaining with
    | true => exact unlockWith_mirrors _
    | false =>
    intro full _
    cases full with
    | true =>
      exact ⟨.leaving, some ⟨_, _⟩, _, .full rfl, .cons .nil, unlockWith_mirrors _⟩
    | false =>
    refine ⟨.roomy, none, _, .roomy, .nil, fun room _ => ?_⟩
    cases room with
    | some room =>
      exact ⟨.leaving, some ⟨_, _⟩, _, .taken roomId roomName maxPlayers room, .cons .nil,
        unlockWith_mirrors _⟩
    | none =>
      exact ⟨_, none, _, .absent roomId roomName maxPlayers, .nil, addRoom_mirrors _ _ _ _⟩
  | closeRoom roomId =>
    refine .silent fun _ _ => ⟨.locked, .lock, fun room _ => ?_⟩
    cases room with
    | none =>
      exact ⟨.leaving, some ⟨_, _⟩, _, .missing roomId, .cons .nil, unlockWith_mirrors _⟩
    | some room =>
      refine ⟨.found roomId, none, _, .found roomId room, .nil, ?_⟩
      refine .silent fun _ _ => ⟨_, .erase roomId, .commit fun _ _ => ?_⟩
      exact ⟨.leaving, _, .fetchSub roomId, unlockWith_mirrors _⟩
  | updateRoomActivity =>
    refine .silent fun _ _ => ⟨.locked, .lock, .silent fun roomIds _ => ?_⟩
    exact ⟨_, .iterate roomIds, tickAll_mirrors [] roomIds⟩
  | canCreateRoom =>
    refine .silent fun _ _ => ⟨.sharing, .lockShared, .commit fun maintaining _ => ?_⟩
    refine ⟨_, maintaining, .askShared maintaining, ?_⟩
    cases maintaining with
    | true => exact unlockSharedWith_mirrors _
    | false =>
      exact .commit fun full _ => ⟨.shared, _, .size full, unlockSharedWith_mirrors _⟩
  | getRoomStatus roomId =>
    refine .silent fun _ _ => ⟨.sharing, .lockShared, .commit fun room _ => ?_⟩
    exact ⟨.shared, _, .status roomId room, unlockSharedWith_mirrors _⟩
  | getAllRooms =>
    refine .silent fun _ _ => ⟨.sharing, .lockShared, .commit fun rooms _ => ?_⟩
    exact ⟨.shared, _, .copyRooms rooms, unlockSharedWith_mirrors _⟩
  | getMaxRooms =>
    refine .silent fun _ _ => ⟨.sharing, .lockShared, .commit fun maxRooms _ => ?_⟩
    exact ⟨.shared, _, .maxRooms maxRooms, unlockSharedWith_mirrors _⟩
  | getRoomCount => exact .commit fun n _ => ⟨.idle, _, .loadRoomCount n, .ret _⟩
  | setMaintenanceMode b => exact .commit fun _ _ => ⟨.idle, _, .setMaintaining b, .ret _⟩
  | isInMaintenanceMode => exact .commit fun b _ => ⟨.idle, _, .isMaintaining b, .ret _⟩

end RoomLock

def LockStage.Knows (m : RoomManager) (rooms : Rooms) : LockStage → Prop
  | .idle | .sharing | .sharingOpen | .shared => True
  | .locked | .asked | .leaving => rooms = m.rooms
  | .roomy => rooms = m.rooms ∧ m.rooms.keys.card < m.maxRooms
  | .chosen call room => rooms = m.rooms ∧ call.Adds m room
  | .inserted call room => rooms = m.rooms.insert room.id room ∧ call.Adds m room
  | .found roomId => rooms = m.rooms ∧ roomId ∈ m.rooms
  | .erased roomId => rooms = m.rooms.erase roomId ∧ roomId ∈ m.rooms
  | .ticking done rest =>
    rooms = done.foldl tickIn m.rooms ∧ done ++ rest = inOrder m.rooms.keys

theorem LockStage.knows_of_not_exclusive {m : RoomManager} {rooms : Rooms} {φ : LockStage}
    (h : φ.own ≠ .exclusive) : φ.Knows m rooms := by
  cases φ with
  | idle | sharing | sharingOpen | shared => trivial
  | _ => exact absurd rfl h

theorem LockStage.Knows.setMaintenanceMode {m : RoomManager} {rooms : Rooms} {φ : LockStage}
    (h : φ.Knows m rooms) (b : Bool) : φ.Knows (m.setMaintenanceMode b) rooms := by
  cases φ with
  | chosen call room | inserted call room => cases call <;> exact h
  | _ => exact h

/-- The steps taken so far, and the atomic manager that has executed what they committed. -/
structure LockedRooms.Implements (m : RoomManager) (s : LockedRooms) (φ : ℕ → LockStage) : Prop where
  maintaining : s.manager.isMaintaining = m.isMaintaining
  maxRooms : s.manager.maxRooms = m.maxRooms
  count : s.manager.roomCount = m.roomCount
  held : Held LockStage.own s.writer s.readers φ
  knows : ∀ t, (φ t).Knows m s.manager.rooms
  rooms : s.writer = false → s.manager.rooms = m.rooms

namespace LockedRooms.Implements
variable {m m' : RoomManager} {s s' : LockedRooms} {φ : ℕ → LockStage} {φ' : LockStage} {t : ℕ}

theorem init (maxRooms : ℕ) :
    (RoomLock.init maxRooms).Implements (RoomManager.init maxRooms) fun _ => .idle where
  maintaining := rfl
  maxRooms := rfl
  count := rfl
  held := Held.init rfl
  knows _ := trivial
  rooms _ := rfl

theorem eq_of_idle (h : s.Implements m φ) (hidle : ∀ t, φ t = .idle) : s.manager = m := by
  have hfree : s.writer = false := by
    rw [Bool.eq_false_iff]
    intro hwriter
    obtain ⟨t, ht⟩ := h.held.writer_iff.mp hwriter
    rw [hidle t] at ht
    cases ht
  obtain ⟨⟨rooms, count, maxRooms, maintaining⟩, writer, readers⟩ := s
  obtain ⟨rooms', count', maxRooms', maintaining'⟩ := m
  simp only [RoomManager.mk.injEq]
  exact ⟨h.rooms hfree, h.count, h.maxRooms, h.maintaining⟩

theorem share (h : s.Implements m φ) (hφ' : φ'.own ≠ .exclusive) {readers : ℕ}
    (hheld : Held LockStage.own s.writer readers (Function.update φ t φ')) :
    LockedRooms.Implements m { s with readers := readers } (Function.update φ t φ') where
  maintaining := h.maintaining
  maxRooms := h.maxRooms
  count := h.count
  held := hheld
  knows u := by
    by_cases hut : u = t
    · rw [hut, Function.update_self]
      exact LockStage.knows_of_not_exclusive hφ'
    · rw [Function.update_of_ne hut]
      exact h.knows u
  rooms := h.rooms

theorem look (h : s.Implements m φ) (hφ' : φ'.own ≠ .exclusive) (hown : φ'.own = (φ t).own) :
    s.Implements m (Function.update φ t φ') := h.share hφ' (h.held.keep hown)

theorem setMaintenanceMode (h : s.Implements m φ) (b : Bool) :
    LockedRooms.Implements (m.setMaintenanceMode b)
      { s with manager := s.manager.setMaintenanceMode b } φ where
  maintaining := rfl
  maxRooms := h.maxRooms
  count := h.count
  held := h.held
  knows u := (h.knows u).setMaintenanceMode b
  rooms := h.rooms

theorem lockShared (h : s.Implements m φ) (hfree : s.writer = false) (ht : (φ t).own = .none) :
    LockedRooms.Implements m { s with readers := s.readers + 1 }
      (Function.update φ t .sharing) := by
  have hheld := h.held
  rw [hfree] at hheld
  refine h.share Ownership.noConfusion ?_
  rw [hfree]
  refine hheld.lockShared ?_ rfl
  rw [ht]
  exact Ownership.noConfusion

theorem alone (hmaintaining : s'.manager.isMaintaining = m'.isMaintaining)
    (hmaxRooms : s'.manager.maxRooms = m'.maxRooms) (hcount : s'.manager.roomCount = m'.roomCount)
    (hheld : Held LockStage.own s'.writer s'.readers (Function.update φ t φ'))
    (hother : ∀ u, u ≠ t → (φ u).own ≠ .exclusive) (hknows : φ'.Knows m' s'.manager.rooms)
    (hrooms : s'.writer = false → s'.manager.rooms = m'.rooms) :
    s'.Implements m' (Function.update φ t φ') where
  maintaining := hmaintaining
  maxRooms := hmaxRooms
  count := hcount
  held := hheld
  knows u := by
    by_cases hut : u = t
    · rw [hut, Function.update_self]
      exact hknows
    · rw [Function.update_of_ne hut]
      exact LockStage.knows_of_not_exclusive (hother u hut)
  rooms := hrooms

theorem inside (h : s.Implements m φ) (ht : (φ t).own = .exclusive) (hφ' : φ'.own = .exclusive)
    {manager : RoomManager} (hmaintaining : manager.isMaintaining = m'.isMaintaining)
    (hmaxRooms : manager.maxRooms = m'.maxRooms) (hcount : manager.roomCount = m'.roomCount)
    (hknows : φ'.Knows m' manager.rooms) :
    LockedRooms.Implements m' { s with manager := manager } (Function.update φ t φ') := by
  refine alone hmaintaining hmaxRooms hcount (h.held.keep (hφ'.trans ht.symm)) ?_ hknows ?_
  · exact fun u hut hu => hut (h.held.unique u t hu ht)
  · intro hfree
    rw [h.held.writer_of_exclusive ht] at hfree
    cases hfree

theorem think (h : s.Implements m φ) (ht : (φ t).own = .exclusive) (hφ' : φ'.own = .exclusive)
    (hknows : φ'.Knows m s.manager.rooms) : s.Implements m (Function.update φ t φ') :=
  h.inside ht hφ' h.maintaining h.maxRooms h.count hknows

theorem unlock (h : s.Implements m φ) (ht : (φ t).own = .exclusive)
    (hmaintaining : s.manager.isMaintaining = m'.isMaintaining)
    (hmaxRooms : s.manager.maxRooms = m'.maxRooms) (hcount : s.manager.roomCount = m'.roomCount)
    (hrooms : s.manager.rooms = m'.rooms) :
    LockedRooms.Implements m' { s with writer := false } (Function.update φ t .idle) :=
  alone hmaintaining hmaxRooms hcount (h.held.unlock ht rfl)
    (fun u hut hu => hut (h.held.unique u t hu ht)) trivial fun _ => hrooms

theorem lock (h : s.Implements m φ) (hfree : s.writer = false) (hreaders : s.readers = 0) :
    LockedRooms.Implements m { s with writer := true } (Function.update φ t .locked) := by
  have hheld := h.held
  rw [hfree, hreaders] at hheld
  refine alone h.maintaining h.maxRooms h.count ?_ (fun u _ => hheld.not_exclusive u)
    (h.rooms hfree) nofun
  show Held LockStage.own true s.readers _
  rw [hreaders]
  exact hheld.lock rfl

theorem rooms_of_shared (h : s.Implements m φ) (ht : (φ t).own = .shared) :
    s.manager.rooms = m.rooms := h.rooms (h.held.not_writer_of_shared ht)

theorem full_eq (h : s.Implements m φ) (hrooms : s.manager.rooms = m.rooms) {full : Bool}
    (hr : (RoomLock.exec .isFull s).1 = full) :
    decide (m.maxRooms ≤ m.rooms.keys.card) = full := by
  rw [← hr, ← hrooms, ← h.maxRooms]
  rfl

theorem step {op : RoomOp} {x : Option (Exchange AtomicOp AtomicOp.Res)} (h : s.Implements m φ)
    (henabled : RoomLock.enabled op s = true)
    (hstep : LockStage.Step (φ t) ⟨op, (RoomLock.exec op s).1⟩ φ' x) :
    ∃ m', AtomicRooms.system.Commits x m m' ∧
      (RoomLock.exec op s).2.Implements m' (Function.update φ t φ') := by
  have hknows := h.knows t
  have hcommits : ∀ {o : AtomicOp} {r : o.Res} {m' : RoomManager}, AtomicRooms.exec o m = (r, m') →
      AtomicRooms.system.Commits (some ⟨o, r⟩) m m' := fun hexec => ⟨rfl, hexec⟩
  generalize hφ : φ t = ψ at hstep hknows
  generalize hr : (RoomLock.exec op s).1 = r at hstep
  have hown : (φ t).own = ψ.own := by rw [hφ]
  cases hstep with
  | loadRoomCount n =>
    have hcount : m.roomCount = n := h.count.symm.trans hr
    refine ⟨m, hcommits ?_, h.look Ownership.noConfusion hown.symm⟩
    rw [← hcount]
    rfl
  | setMaintaining b =>
    refine ⟨m.setMaintenanceMode b, hcommits rfl, ?_⟩
    exact (h.look Ownership.noConfusion hown.symm).setMaintenanceMode b
  | isMaintaining b =>
    have hb : m.isMaintaining = b := h.maintaining.symm.trans hr
    refine ⟨m, hcommits ?_, h.look Ownership.noConfusion hown.symm⟩
    rw [← hb]
    rfl
  | lockShared =>
    have hfree : s.writer = false := by simpa [RoomLock.enabled] using henabled
    exact ⟨m, rfl, h.lockShared hfree hown⟩
  | status roomId room =>
    have hroom : m.rooms.lookup roomId = room := by
      rw [← h.rooms_of_shared hown]
      exact hr
    refine ⟨m, hcommits ?_, h.look Ownership.noConfusion hown.symm⟩
    rw [← hroom]
    rfl
  | copyRooms rooms =>
    have hrooms : m.rooms = rooms := (h.rooms_of_shared hown).symm.trans hr
    refine ⟨m, hcommits ?_, h.look Ownership.noConfusion hown.symm⟩
    rw [← hrooms]
    rfl
  | maxRooms n =>
    have hmax : m.maxRooms = n := h.maxRooms.symm.trans hr
    refine ⟨m, hcommits ?_, h.look Ownership.noConfusion hown.symm⟩
    rw [← hmax]
    rfl
  | askShared b =>
    have hb : m.isMaintaining = b := h.maintaining.symm.trans hr
    refine ⟨m, hcommits (by rw [← hb]; rfl), ?_⟩
    cases b <;> exact h.look Ownership.noConfusion hown.symm
  | size full =>
    have hfull := h.full_eq (h.rooms_of_shared hown) hr
    refine ⟨m, hcommits ?_, h.look Ownership.noConfusion hown.symm⟩
    have hroomy : (!decide (m.maxRooms ≤ m.rooms.keys.card)) =
        decide (m.rooms.keys.card < m.maxRooms) := by
      simp only [← decide_not, not_le]
    rw [← hfull, hroomy]
    rfl
  | unlockShared => exact ⟨m, rfl, h.share Ownership.noConfusion (h.held.unlockShared hown rfl)⟩
  | lock =>
    have hfree : s.writer = false ∧ s.readers = 0 := by simpa [RoomLock.enabled] using henabled
    exact ⟨m, rfl, h.lock hfree.1 hfree.2⟩
  | ask b =>
    have hb : m.isMaintaining = b := h.maintaining.symm.trans hr
    refine ⟨m, hcommits (by rw [← hb]; rfl), ?_⟩
    cases b <;> exact h.think hown rfl hknows
  | full hcall =>
    have hfull := of_decide_eq_true (h.full_eq hknows hr)
    exact ⟨m, hcommits (AtomicRooms.exec_full hcall hfull), h.think hown rfl hknows⟩
  | roomy =>
    have hfull := of_decide_eq_false (h.full_eq hknows hr)
    exact ⟨m, rfl, h.think hown rfl ⟨hknows, not_le.mp hfull⟩⟩
  | taken roomId roomName maxPlayers room =>
    have hmem : roomId ∈ m.rooms := by
      rw [← hknows.1]
      exact Finmap.mem_of_lookup_eq_some hr
    exact ⟨m, hcommits (AtomicRooms.exec_taken _ _ hmem), h.think hown rfl hknows.1⟩
  | absent roomId roomName maxPlayers =>
    have hnot : roomId ∉ m.rooms := by
      rw [← hknows.1]
      exact Finmap.lookup_eq_none.mp hr
    exact ⟨m, rfl, h.think hown rfl ⟨hknows.1, hknows.2, hnot, rfl⟩⟩
  | generate newId roomName maxPlayers =>
    exact ⟨m, rfl, h.think hown rfl ⟨hknows.1, hknows.2, rfl⟩⟩
  | insert call room =>
    obtain ⟨hrooms, hadds⟩ := hknows
    refine ⟨m, rfl, h.inside hown rfl h.maintaining h.maxRooms h.count ⟨?_, hadds⟩⟩
    rw [← hrooms]
  | fetchAdd call room =>
    obtain ⟨hrooms, hadds⟩ := hknows
    refine ⟨_, hcommits hadds.exec, h.inside hown rfl h.maintaining h.maxRooms ?_ hrooms⟩
    exact congrArg (· + 1) h.count
  | missing roomId =>
    have hnot : roomId ∉ m.rooms := by
      rw [← hknows]
      exact Finmap.lookup_eq_none.mp hr
    refine ⟨m, hcommits ?_, h.think hown rfl hknows⟩
    simp [AtomicRooms.exec, RoomCall.apply, RoomManager.closeRoom, hnot]
  | found roomId room =>
    have hmem : roomId ∈ m.rooms := by
      rw [← hknows]
      exact Finmap.mem_of_lookup_eq_some hr
    exact ⟨m, rfl, h.think hown rfl ⟨hknows, hmem⟩⟩
  | erase roomId =>
    obtain ⟨hrooms, hmem⟩ := hknows
    refine ⟨m, rfl, h.inside hown rfl h.maintaining h.maxRooms h.count ⟨?_, hmem⟩⟩
    rw [← hrooms]
  | fetchSub roomId =>
    obtain ⟨hrooms, hmem⟩ := hknows
    refine ⟨{ m with rooms := m.rooms.erase roomId, roomCount := m.roomCount - 1 },
      hcommits ?_, h.inside hown rfl h.maintaining h.maxRooms ?_ hrooms⟩
    · simp [AtomicRooms.exec, RoomCall.apply, RoomManager.closeRoom, hmem]
    · exact congrArg (· - 1) h.count
  | iterate roomIds =>
    refine ⟨m, rfl, h.think hown rfl ⟨hknows, ?_⟩⟩
    rw [← hknows]
    exact hr.symm
  | tick done roomId rest =>
    obtain ⟨hrooms, horder⟩ := hknows
    refine ⟨m, rfl, ?_⟩
    show LockedRooms.Implements m { s with manager := s.manager.tickRoom roomId } _
    rw [RoomManager.tickRoom_eq]
    refine h.inside hown rfl h.maintaining h.maxRooms h.count ⟨?_, ?_⟩
    · rw [List.foldl_append, ← hrooms]
      rfl
    · rw [List.append_assoc]
      exact horder
  | ticked done =>
    obtain ⟨hrooms, horder⟩ := hknows
    rw [List.append_nil] at horder
    refine ⟨m.updateRoomActivity, hcommits rfl, h.unlock hown ?_ ?_ ?_ ?_⟩
    all_goals rw [RoomManager.updateRoomActivity, RoomManager.foldl_tickRoom]
    · exact h.maintaining
    · exact h.maxRooms
    · exact h.count
    · rw [← horder]
      exact hrooms
  | unlock => exact ⟨m, rfl, h.unlock hown h.maintaining h.maxRooms h.count hknows⟩

end LockedRooms.Implements

namespace RoomLock

theorem refines_atomicRooms : AtomicRooms.system.Refines lockDiscipline system
    (fun _ _ => True) fun m s φ => s.Implements m φ where
  possible op s := by
    cases op with
    | generateRoomId newId => exact rfl
    | _ => trivial
  code := code_mirrors
  step _ _ _ _ _ _ _ h henabled _ hstep := h.step henabled hstep

/-- Every interleaving of the methods, step by step, is one of the atomic manager. -/
theorem explained_by_atomicRooms (maxRooms : ℕ) {as : List (Action RoomCall)}
    {c : Config LockedRooms RoomCall RoomOp RoomOp.Res RoomReply}
    (h : system.replay (fun _ _ => true) (Config.init (init maxRooms)) as = some c) :
    ∃ bs d, Explains AtomicRooms.system LockedRooms.manager (RoomManager.init maxRooms) as c bs d :=
  refines_atomicRooms.exists_explains (fun _ _ _ _ _ _ _ _ _ => trivial)
    (fun _ _ _ h hidle => (h.eq_of_idle hidle).symm) (.init maxRooms) h

end RoomLock

/-- The flag is set, and the counter read, between a creation's look at the flag and its
insertion; a second creation waits for the lock and finds the flag set. -/
def Sample.flagInsideCreate : List (Action RoomCall) :=
  let steps (t n : ℕ) : List (Action RoomCall) := List.replicate n (.run t)
  [.start (.createRoomWithId "r" "b" 4)] ++ steps 0 3 ++ [.start (.setMaintenanceMode true)] ++
    steps 1 1 ++ [.start .getRoomCount] ++ steps 2 1 ++ steps 0 4 ++
    [.start (.createRoom "a" 2 "id-0")] ++ steps 3 3

namespace RoomLock

theorem flagInsideCreate_explained : ∃ c bs d,
    system.replay (fun _ _ => true) (Config.init (init 2)) Sample.flagInsideCreate = some c ∧
      Explains AtomicRooms.system LockedRooms.manager (RoomManager.init 2)
        Sample.flagInsideCreate c bs d ∧
      d.answer 0 = some (.roomId "r") ∧ d.answer 2 = some (.count 0) ∧
      d.answer 3 = some (.roomId "") ∧ d.shared.rooms.keys = {"r"} := by
  have hruns : (system.replay (fun _ _ => true) (Config.init (init 2))
      Sample.flagInsideCreate).any (fun c => c.isQuiescent &&
        decide (c.answer 0 = some (.roomId "r") ∧ c.answer 2 = some (.count 0) ∧
          c.answer 3 = some (.roomId "") ∧ c.shared.manager.rooms.keys = {"r"})) = true := by
    decide +kernel
  obtain ⟨c, hc, hcheck⟩ := (Option.any_eq_true _ _).mp hruns
  simp only [Bool.and_eq_true, decide_eq_true_eq] at hcheck
  obtain ⟨hquiescent, hfirst, hcount, hsecond, hrooms⟩ := hcheck
  obtain ⟨bs, d, hexplains⟩ := explained_by_atomicRooms 2 hc
  have hstate := hexplains.settles (Config.quiescent_of_isQuiescent hquiescent)
  exact ⟨c, bs, d, hc, hexplains, hexplains.answer_eq hfirst, hexplains.answer_eq hcount,
    hexplains.answer_eq hsecond, by rw [hstate, hrooms]⟩

theorem waitsOnlyOutside : WaitsOnlyOutside lockDiscipline system LockStage.own where
  possible := refines_atomicRooms.possible
  idle := rfl
  inside ψ op r φ' x s hψ hstep := by
    cases hstep with
    | lock | lockShared => exact absurd rfl hψ
    | _ => rfl

/-- Whatever calls have been started, and wherever they are, they can all return. -/
theorem roomCalls_finish (maxRooms : ℕ)
    {c : Config LockedRooms RoomCall RoomOp RoomOp.Res RoomReply}
    (h : system.Reachable (fun _ _ => True) (init maxRooms) c) :
    ∃ d, system.ReachableFrom System.OnlyRuns c d ∧ d.Quiescent := by
  refine System.exists_quiescent (fun _ _ => trivial) (fun c hc hbusy => ?_) h
  obtain ⟨d, φ, -, hmatches, hI⟩ := refines_atomicRooms.exists_matches (.init maxRooms) hc
  refine waitsOnlyOutside.someone_moves hmatches hI.held (fun hwriter hreaders op => ?_) hbusy
  cases op <;> simp [system, enabled, hwriter, hreaders]

theorem waiting_calls_finish : ∃ c d,
    system.Reachable (fun _ _ => True) (init 2) c ∧ c.isQuiescent = false ∧
      system.ReachableFrom System.OnlyRuns c d ∧ d.Quiescent := by
  obtain ⟨c, hreach, hbusy⟩ := System.exists_reachable_of_schedule (S := system) (s := init 2)
    [.start .getAllRooms, .run 0, .start (.createRoomWithId "r" "b" 4)]
    (fun c => !c.isQuiescent) (by decide +kernel)
  obtain ⟨d, hrest, hd⟩ := roomCalls_finish 2 hreach
  exact ⟨c, d, hreach, by simpa using hbusy, hrest, hd⟩

end RoomLock

end PokemonServer
