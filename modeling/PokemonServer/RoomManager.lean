import Mathlib

/-!
# RoomManager

Each method that holds `mutex_` is one function of the whole manager. The lock,
and the separate updates of `rooms_` and `room_count_` under it, are modelled in
`RoomLock`. `created_time` is never read and is left out.
-/

namespace PokemonServer

structure Room where
  id : String
  name : String
  playerCount : ℤ
  maxPlayers : ℤ
  isActive : Bool
  counter : ℤ
  deriving DecidableEq

abbrev Rooms := Finmap (fun _ : String => Room)

structure RoomManager where
  rooms : Rooms
  roomCount : ℤ
  maxRooms : ℕ
  isMaintaining : Bool

def newRoom (roomId roomName : String) (maxPlayers : ℤ) : Room where
  id := roomId
  name := roomName
  playerCount := 0
  maxPlayers := maxPlayers
  isActive := true
  counter := 0

/-- One room's turn in the loop of UpdateRoomActivity. `counter` is a 32-bit int. -/
def Room.tick (room : Room) : Room :=
  let counter := (room.counter + 1).bmod (2 ^ 32)
  if counter.tmod 3 = 0 ∧ room.playerCount < room.maxPlayers then
    { room with counter := counter, playerCount := room.playerCount + 1 }
  else if counter.tmod 5 = 0 ∧ room.playerCount > 0 then
    { room with counter := counter, playerCount := room.playerCount - 1 }
  else
    { room with counter := counter }

theorem keys_insert {α : Type} [DecidableEq α] {β : α → Type} (m : Finmap β) (k : α) (v : β k) :
    (m.insert k v).keys = insert k m.keys := by
  ext a
  simp [Finmap.mem_keys]

theorem insert_eq_self {α : Type} [DecidableEq α] {β : α → Type} {m : Finmap β} {k : α} {v : β k}
    (h : m.lookup k = some v) : m.insert k v = m := by
  refine Finmap.ext_lookup fun a => ?_
  by_cases ha : a = k
  · subst ha
    rw [Finmap.lookup_insert, h]
  · rw [Finmap.lookup_insert_of_ne _ ha]

def inOrder (keys : Finset String) : List String :=
  -- not `Finset.sort`, whose merge sort does not evaluate in a proof
  keys.val.liftOn (fun l => l.insertionSort (· ≤ ·)) fun a b h => by
    have hperm : (a.insertionSort (· ≤ ·)).Perm (b.insertionSort (· ≤ ·)) :=
      ((List.perm_insertionSort _ a).trans h).trans (List.perm_insertionSort _ b).symm
    refine hperm.eq_of_pairwise ?_ (List.pairwise_insertionSort _ a) (List.pairwise_insertionSort _ b)
    intro x y _ _ hxy hyx
    exact le_antisymm hxy hyx

namespace RoomManager

def init (maxRooms : ℕ) : RoomManager := ⟨∅, 0, maxRooms, false⟩

def isInMaintenanceMode (m : RoomManager) : Bool := m.isMaintaining

def setMaintenanceMode (m : RoomManager) (isMaintaining : Bool) : RoomManager :=
  { m with isMaintaining := isMaintaining }

def canCreateRoom (m : RoomManager) : Bool := !m.isMaintaining && m.rooms.keys.card < m.maxRooms

def getRoomCount (m : RoomManager) : ℤ := m.roomCount

def getMaxRooms (m : RoomManager) : ℕ := m.maxRooms

def getRoomStatus (m : RoomManager) (roomId : String) : Option Room := m.rooms.lookup roomId

/-- Returns the id, or the empty string when the room is refused. -/
def createRoomWithId (m : RoomManager) (roomId roomName : String) (maxPlayers : ℤ) :
    String × RoomManager :=
  if m.isMaintaining then ("", m)
  else if m.maxRooms ≤ m.rooms.keys.card then ("", m)
  else if roomId ∈ m.rooms then ("", m)
  else (roomId, { m with
    rooms := m.rooms.insert roomId (newRoom roomId roomName maxPlayers)
    roomCount := m.roomCount + 1 })

def closeRoom (m : RoomManager) (roomId : String) : Bool × RoomManager :=
  if roomId ∈ m.rooms then
    (true, { m with rooms := m.rooms.erase roomId, roomCount := m.roomCount - 1 })
  else (false, m)

/-- `newId` is the id that GenerateRoomId returned. -/
def createRoom (m : RoomManager) (newId roomName : String) (maxPlayers : ℤ) :
    String × RoomManager :=
  if m.isMaintaining then ("", m)
  else if m.maxRooms ≤ m.rooms.keys.card then ("", m)
  else (newId, { m with
    rooms := m.rooms.insert newId (newRoom newId roomName maxPlayers)
    roomCount := m.roomCount + 1 })

def getAllRooms (m : RoomManager) : Rooms := m.rooms

def tickRoom (m : RoomManager) (roomId : String) : RoomManager :=
  match m.rooms.lookup roomId with
  | none => m
  | some room => { m with rooms := m.rooms.insert roomId room.tick }

def updateRoomActivity (m : RoomManager) : RoomManager := (inOrder m.rooms.keys).foldl tickRoom m

theorem createRoomWithId_cases (m : RoomManager) (roomId : String)
    (roomName : String) (maxPlayers : ℤ) :
    (m.createRoomWithId roomId roomName maxPlayers).1 = "" ∧
        (m.createRoomWithId roomId roomName maxPlayers).2 = m ∧
        (m.isMaintaining = true ∨ m.maxRooms ≤ m.rooms.keys.card ∨ roomId ∈ m.rooms) ∨
      (m.createRoomWithId roomId roomName maxPlayers).1 = roomId ∧ roomId ∉ m.rooms ∧
        m.isMaintaining = false ∧ m.rooms.keys.card < m.maxRooms ∧
        (m.createRoomWithId roomId roomName maxPlayers).2 = { m with
          rooms := m.rooms.insert roomId (newRoom roomId roomName maxPlayers)
          roomCount := m.roomCount + 1 } := by
  unfold createRoomWithId
  split
  · rename_i hm
    exact Or.inl ⟨rfl, rfl, Or.inl hm⟩
  · rename_i hm
    split
    · rename_i hfull
      exact Or.inl ⟨rfl, rfl, Or.inr (Or.inl hfull)⟩
    · rename_i hfull
      split
      · rename_i hmem
        exact Or.inl ⟨rfl, rfl, Or.inr (Or.inr hmem)⟩
      · rename_i hmem
        exact Or.inr ⟨rfl, hmem, by simpa using hm, lt_of_not_ge hfull, rfl⟩

theorem closeRoom_fst (m : RoomManager) (roomId : String) :
    (m.closeRoom roomId).1 = decide (roomId ∈ m.rooms) := by
  unfold closeRoom
  split <;> simp_all

theorem mem_closeRoom {m : RoomManager} {roomId r : String} :
    r ∈ (m.closeRoom roomId).2.rooms ↔ r ≠ roomId ∧ r ∈ m.rooms := by
  unfold closeRoom
  split
  · simp
  · rename_i h
    exact ⟨fun hr => ⟨fun he => h (he ▸ hr), hr⟩, fun hr => hr.2⟩

theorem mem_createRoomWithId {m : RoomManager} {roomId roomName r : String} {maxPlayers : ℤ}
    (hid : roomId ≠ "") :
    r ∈ (m.createRoomWithId roomId roomName maxPlayers).2.rooms ↔
      r = roomId ∧ (m.createRoomWithId roomId roomName maxPlayers).1 ≠ "" ∨ r ∈ m.rooms := by
  rcases m.createRoomWithId_cases roomId roomName maxPlayers with ⟨h1, h2, -⟩ | ⟨h1, -, -, -, h2⟩
  · simp [h1, h2]
  · simp [h1, h2, hid]

end RoomManager
end PokemonServer
