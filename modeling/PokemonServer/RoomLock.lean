import PokemonServer.Interleaving.Path
import PokemonServer.Interleaving.Protocol
import PokemonServer.RoomManager

/-!
# The lock of RoomManager

The methods of RoomManager, step by step: `mutex_` is taken exclusively by the
methods that change `rooms_` and shared by those that only read it; `rooms_` and
`room_count_` are updated by separate steps; `is_maintaining_` is written, and the
counter read, without the lock. Run alone, a method does what its one-step form
in `RoomManager` says.
-/

namespace PokemonServer
open Interleaving

structure LockedRooms where
  manager : RoomManager
  writer : Bool
  readers : ℕ

inductive RoomOp where
  | lock
  | unlock
  | lockShared
  | unlockShared
  | isMaintaining
  | setMaintaining (isMaintaining : Bool)
  | isFull
  | find (roomId : String)
  | generateRoomId (newId : String)
  | insert (roomId : String) (room : Room)
  | fetchAdd
  | erase (roomId : String)
  | fetchSub
  | iterate
  | tick (roomId : String)
  | copyRooms
  | maxRooms
  | loadRoomCount

abbrev RoomOp.Res : RoomOp → Type
  | .isMaintaining | .isFull => Bool
  | .find _ => Option Room
  | .generateRoomId _ => String
  | .iterate => List String
  | .copyRooms => Rooms
  | .maxRooms => ℕ
  | .loadRoomCount => ℤ
  | _ => Unit

inductive RoomCall where
  | createRoom (roomName : String) (maxPlayers : ℤ) (newId : String)
  | createRoomWithId (roomId roomName : String) (maxPlayers : ℤ)
  | getRoomStatus (roomId : String)
  | closeRoom (roomId : String)
  | getAllRooms
  | getRoomCount
  | getMaxRooms
  | canCreateRoom
  | updateRoomActivity
  | setMaintenanceMode (isMaintaining : Bool)
  | isInMaintenanceMode

inductive RoomReply where
  | roomId (roomId : String)
  | status (room : Option Room)
  | bool (b : Bool)
  | rooms (rooms : Rooms)
  | count (n : ℤ)
  | capacity (n : ℕ)
  | done
  deriving DecidableEq

namespace RoomLock

abbrev Method := Prog RoomOp RoomOp.Res RoomReply

def init (maxRooms : ℕ) : LockedRooms := ⟨RoomManager.init maxRooms, false, 0⟩

def exec : (op : RoomOp) → LockedRooms → op.Res × LockedRooms
  | .lock, s => ((), { s with writer := true })
  | .unlock, s => ((), { s with writer := false })
  | .lockShared, s => ((), { s with readers := s.readers + 1 })
  | .unlockShared, s => ((), { s with readers := s.readers - 1 })
  | .isMaintaining, s => (s.manager.isMaintaining, s)
  | .setMaintaining b, s => ((), { s with manager := s.manager.setMaintenanceMode b })
  | .isFull, s => (decide (s.manager.maxRooms ≤ s.manager.rooms.keys.card), s)
  | .find roomId, s => (s.manager.rooms.lookup roomId, s)
  | .generateRoomId newId, s => (newId, s)
  | .insert roomId room, s =>
    ((), { s with manager := { s.manager with rooms := s.manager.rooms.insert roomId room } })
  | .fetchAdd, s =>
    ((), { s with manager := { s.manager with roomCount := s.manager.roomCount + 1 } })
  | .erase roomId, s =>
    ((), { s with manager := { s.manager with rooms := s.manager.rooms.erase roomId } })
  | .fetchSub, s =>
    ((), { s with manager := { s.manager with roomCount := s.manager.roomCount - 1 } })
  | .iterate, s => (inOrder s.manager.rooms.keys, s)
  | .tick roomId, s => ((), { s with manager := s.manager.tickRoom roomId })
  | .copyRooms, s => (s.manager.rooms, s)
  | .maxRooms, s => (s.manager.maxRooms, s)
  | .loadRoomCount, s => (s.manager.roomCount, s)

/-- A writer waits until the mutex is free, a reader until no writer holds it. -/
def enabled : RoomOp → LockedRooms → Bool
  | .lock, s => !s.writer && s.readers == 0
  | .lockShared, s => !s.writer
  | _, _ => true

/-- Leaving the scope of the lock_guard. -/
def unlockWith (reply : RoomReply) : Method := do
  let _ ← .op RoomOp.unlock
  return reply

def unlockSharedWith (reply : RoomReply) : Method := do
  let _ ← .op RoomOp.unlockShared
  return reply

def addRoom (roomId roomName : String) (maxPlayers : ℤ) : Method := do
  let _ ← .op (RoomOp.insert roomId (newRoom roomId roomName maxPlayers))
  let _ ← .op RoomOp.fetchAdd
  unlockWith (.roomId roomId)

def createRoom (roomName : String) (maxPlayers : ℤ) (newId : String) : Method := do
  let _ ← .op RoomOp.lock
  if ← .op RoomOp.isMaintaining then
    unlockWith (.roomId "")
  else if ← .op RoomOp.isFull then
    unlockWith (.roomId "")
  else
    let roomId ← .op (RoomOp.generateRoomId newId)
    addRoom roomId roomName maxPlayers

def createRoomWithId (roomId roomName : String) (maxPlayers : ℤ) : Method := do
  let _ ← .op RoomOp.lock
  if ← .op RoomOp.isMaintaining then
    unlockWith (.roomId "")
  else if ← .op RoomOp.isFull then
    unlockWith (.roomId "")
  else if (← .op (RoomOp.find roomId)).isSome then
    unlockWith (.roomId "")
  else
    addRoom roomId roomName maxPlayers

def getRoomStatus (roomId : String) : Method := do
  let _ ← .op RoomOp.lockShared
  let room ← .op (RoomOp.find roomId)
  unlockSharedWith (.status room)

def closeRoom (roomId : String) : Method := do
  let _ ← .op RoomOp.lock
  if (← .op (RoomOp.find roomId)).isNone then
    unlockWith (.bool false)
  else
    let _ ← .op (RoomOp.erase roomId)
    let _ ← .op RoomOp.fetchSub
    unlockWith (.bool true)

def getAllRooms : Method := do
  let _ ← .op RoomOp.lockShared
  let rooms ← .op RoomOp.copyRooms
  unlockSharedWith (.rooms rooms)

def getRoomCount : Method := do
  return .count (← .op RoomOp.loadRoomCount)

def getMaxRooms : Method := do
  let _ ← .op RoomOp.lockShared
  let maxRooms ← .op RoomOp.maxRooms
  unlockSharedWith (.capacity maxRooms)

def canCreateRoom : Method := do
  let _ ← .op RoomOp.lockShared
  if ← .op RoomOp.isMaintaining then
    unlockSharedWith (.bool false)
  else
    let full ← .op RoomOp.isFull
    unlockSharedWith (.bool !full)

def tickAll : List String → Method
  | [] => unlockWith .done
  | roomId :: roomIds => do
    let _ ← .op (RoomOp.tick roomId)
    tickAll roomIds

def updateRoomActivity : Method := do
  let _ ← .op RoomOp.lock
  let roomIds ← .op RoomOp.iterate
  tickAll roomIds

def setMaintenanceMode (isMaintaining : Bool) : Method := do
  let _ ← .op (RoomOp.setMaintaining isMaintaining)
  return .done

def isInMaintenanceMode : Method := do
  return .bool (← .op RoomOp.isMaintaining)

def code : RoomCall → Method
  | .createRoom roomName maxPlayers newId => createRoom roomName maxPlayers newId
  | .createRoomWithId roomId roomName maxPlayers => createRoomWithId roomId roomName maxPlayers
  | .getRoomStatus roomId => getRoomStatus roomId
  | .closeRoom roomId => closeRoom roomId
  | .getAllRooms => getAllRooms
  | .getRoomCount => getRoomCount
  | .getMaxRooms => getMaxRooms
  | .canCreateRoom => canCreateRoom
  | .updateRoomActivity => updateRoomActivity
  | .setMaintenanceMode isMaintaining => setMaintenanceMode isMaintaining
  | .isInMaintenanceMode => isInMaintenanceMode

def system : System LockedRooms RoomCall RoomOp RoomOp.Res RoomReply where
  code := code
  exec := exec
  enabled := enabled

end RoomLock

def RoomCall.apply (m : RoomManager) : RoomCall → RoomReply × RoomManager
  | .createRoom roomName maxPlayers newId =>
    let r := m.createRoom newId roomName maxPlayers
    (.roomId r.1, r.2)
  | .createRoomWithId roomId roomName maxPlayers =>
    let r := m.createRoomWithId roomId roomName maxPlayers
    (.roomId r.1, r.2)
  | .getRoomStatus roomId => (.status (m.getRoomStatus roomId), m)
  | .closeRoom roomId =>
    let r := m.closeRoom roomId
    (.bool r.1, r.2)
  | .getAllRooms => (.rooms m.getAllRooms, m)
  | .getRoomCount => (.count m.getRoomCount, m)
  | .getMaxRooms => (.capacity m.getMaxRooms, m)
  | .canCreateRoom => (.bool m.canCreateRoom, m)
  | .updateRoomActivity => (.done, m.updateRoomActivity)
  | .setMaintenanceMode isMaintaining => (.done, m.setMaintenanceMode isMaintaining)
  | .isInMaintenanceMode => (.bool m.isInMaintenanceMode, m)

namespace RoomLock

theorem tickAll_run (roomIds : List String) (s : LockedRooms) :
    (tickAll roomIds).run exec s =
      (.done, { s with manager := roomIds.foldl RoomManager.tickRoom s.manager, writer := false }) := by
  induction roomIds generalizing s with
  | nil => rfl
  | cons roomId roomIds ih => exact ih _

theorem addRoom_run (roomId roomName : String) (maxPlayers : ℤ) (s : LockedRooms) :
    (addRoom roomId roomName maxPlayers).run exec s =
      (.roomId roomId, { s with
        manager := { s.manager with
          rooms := s.manager.rooms.insert roomId (newRoom roomId roomName maxPlayers)
          roomCount := s.manager.roomCount + 1 }
        writer := false }) := rfl

/-- A method that runs while nobody holds the lock is its one-step form. -/
theorem code_run (call : RoomCall) {s : LockedRooms} (hfree : s.writer = false) :
    (code call).run exec s =
      ((call.apply s.manager).1, { s with manager := (call.apply s.manager).2 }) := by
  obtain ⟨m, writer, readers⟩ := s
  obtain rfl : writer = false := hfree
  cases call with
  | createRoom roomName maxPlayers newId =>
    by_cases hmaintaining : m.isMaintaining = true
    · simp [code, createRoom, exec, RoomCall.apply, RoomManager.createRoom, hmaintaining, unlockWith]
    by_cases hfull : m.maxRooms ≤ m.rooms.keys.card
    · simp [code, createRoom, exec, RoomCall.apply, RoomManager.createRoom, hmaintaining, hfull,
        unlockWith]
    · simp [code, createRoom, exec, RoomCall.apply, RoomManager.createRoom, hmaintaining, hfull,
        addRoom_run]
  | createRoomWithId roomId roomName maxPlayers =>
    by_cases hmaintaining : m.isMaintaining = true
    · simp [code, createRoomWithId, exec, RoomCall.apply, RoomManager.createRoomWithId,
        hmaintaining, unlockWith]
    by_cases hfull : m.maxRooms ≤ m.rooms.keys.card
    · simp [code, createRoomWithId, exec, RoomCall.apply, RoomManager.createRoomWithId,
        hmaintaining, hfull, unlockWith]
    by_cases hmem : roomId ∈ m.rooms
    · have hfound := Finmap.lookup_isSome.mpr hmem
      simp [code, createRoomWithId, exec, RoomCall.apply, RoomManager.createRoomWithId,
        hmaintaining, hfull, hmem, hfound, unlockWith]
    · have hnone := Finmap.lookup_eq_none.mpr hmem
      simp [code, createRoomWithId, exec, RoomCall.apply, RoomManager.createRoomWithId,
        hmaintaining, hfull, hmem, hnone, addRoom_run]
  | closeRoom roomId =>
    by_cases hmem : roomId ∈ m.rooms
    · have hfound : m.rooms.lookup roomId ≠ none := fun h => Finmap.lookup_eq_none.mp h hmem
      simp [code, closeRoom, exec, RoomCall.apply, RoomManager.closeRoom, hmem, hfound, unlockWith]
    · have hnone := Finmap.lookup_eq_none.mpr hmem
      simp [code, closeRoom, exec, RoomCall.apply, RoomManager.closeRoom, hmem, hnone, unlockWith]
  | canCreateRoom =>
    by_cases hmaintaining : m.isMaintaining = true
    · simp [code, canCreateRoom, exec, RoomCall.apply, RoomManager.canCreateRoom, hmaintaining,
        unlockSharedWith]
    · have hroomy : (!decide (m.maxRooms ≤ m.rooms.keys.card)) =
          decide (m.rooms.keys.card < m.maxRooms) := by
        simp only [← decide_not, not_le]
      simp [code, canCreateRoom, exec, RoomCall.apply, RoomManager.canCreateRoom, hmaintaining,
        unlockSharedWith, hroomy]
  | updateRoomActivity => exact tickAll_run _ _
  | _ => rfl

end RoomLock

end PokemonServer
