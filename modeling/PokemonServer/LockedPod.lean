import PokemonServer.Interleaving.Postconditions
import PokemonServer.Pod
import PokemonServer.RoomLock

/-!
# The process of one server, with the lock of its RoomManager

The threads of `Pod`, where every call of a method of RoomManager is the method of
`RoomLock`, step by step. A call that finds the lock free and is not interrupted does
what the one-step operation of `Pod` does.
-/

namespace PokemonServer
open Interleaving

inductive StepOp where
  | room (op : RoomOp)
  | pod (op : PodOp)

abbrev StepOp.Res : StepOp → Type
  | .room op => op.Res
  | .pod op => op.Res

structure LockedPod (sim : Simulator) where
  pod : Pod sim
  writer : Bool
  readers : ℕ

namespace RoomReply

/-! The value that a method returns, of a reply of its own kind. -/

def toBool : RoomReply → Bool
  | .bool b => b
  | _ => false

def toRoomId : RoomReply → String
  | .roomId id => id
  | _ => ""

def toStatus : RoomReply → Option Room
  | .status room => room
  | _ => none

def toRooms : RoomReply → Rooms
  | .rooms map => map
  | _ => ∅

def toCount : RoomReply → ℤ
  | .count n => n
  | _ => 0

def toCapacity : RoomReply → ℕ
  | .capacity n => n
  | _ => 0

end RoomReply

def PodOp.callsRooms : PodOp → Bool
  | .server .isInMaintenanceMode | .server .canCreateRoom | .server (.createRoomWithId _ _ _)
  | .server (.getRoomStatus _) | .server (.closeRoom _) | .server .getRoomCount
  | .server .getMaxRooms | .setMaintenanceMode _ | .getAllRooms => true
  | _ => false

namespace LockedPod

abbrev Steps := Prog StepOp StepOp.Res

def method (call : RoomCall) : Steps RoomReply :=
  (RoomLock.code call).expand fun o => .op (StepOp.room o)

def steps : (op : PodOp) → Steps op.Res
  | .server .isInMaintenanceMode => do
    return (← method .isInMaintenanceMode).toBool
  | .server .canCreateRoom => do
    return (← method .canCreateRoom).toBool
  | .server (.createRoomWithId roomId roomName maxPlayers) => do
    return (← method (.createRoomWithId roomId roomName maxPlayers)).toRoomId
  | .server (.getRoomStatus roomId) => do
    return (← method (.getRoomStatus roomId)).toStatus
  | .server (.closeRoom roomId) => do
    return (← method (.closeRoom roomId)).toBool
  | .server .getRoomCount => do
    return (← method .getRoomCount).toCount
  | .server .getMaxRooms => do
    return (← method .getMaxRooms).toCapacity
  | .setMaintenanceMode isMaintaining => do
    let _ ← method (.setMaintenanceMode isMaintaining)
    return ()
  | .getAllRooms => do
    return inOrder (← method .getAllRooms).toRooms.keys
  | op => .op (StepOp.pod op)

def code (cfg : ServiceConfig) (req : PodRequest cfg.podIp) : Steps PodResult :=
  (Pod.code cfg req).expand steps

variable {sim : Simulator}

def rooms (s : LockedPod sim) : LockedRooms := ⟨s.pod.server.rooms, s.writer, s.readers⟩

def withRooms (s : LockedPod sim) (rooms : LockedRooms) : LockedPod sim where
  pod := { s.pod with server := { s.pod.server with rooms := rooms.manager } }
  writer := rooms.writer
  readers := rooms.readers

def exec (scanPage : ScanPolicy) : (op : StepOp) → LockedPod sim → op.Res × LockedPod sim
  | .room op, s => ((RoomLock.exec op s.rooms).1, s.withRooms (RoomLock.exec op s.rooms).2)
  | .pod op, s =>
    ((Pod.exec scanPage op s.pod).1, { s with pod := (Pod.exec scanPage op s.pod).2 })

def enabled : StepOp → LockedPod sim → Bool
  | .room op, s => RoomLock.enabled op s.rooms
  | .pod op, s => Pod.enabled op s.pod

def system (sim : Simulator) (cfg : ServiceConfig) (scanPage : ScanPolicy) :
    System (LockedPod sim) (PodRequest cfg.podIp) StepOp StepOp.Res PodResult where
  code := code cfg
  exec := exec scanPage
  enabled := enabled

def started (server : ServerState sim Store) : LockedPod sim := ⟨Pod.started server, false, 0⟩

theorem run_rooms {α : Type} (scanPage : ScanPolicy) (p : Prog RoomOp RoomOp.Res α)
    (s : LockedPod sim) :
    (p.expand fun o => .op (StepOp.room o) : Steps α).run (exec scanPage) s =
      ((p.run RoomLock.exec s.rooms).1, s.withRooms (p.run RoomLock.exec s.rooms).2) := by
  induction p generalizing s with
  | ret a => rfl
  | call o next ih => exact ih _ _

theorem method_run (scanPage : ScanPolicy) (call : RoomCall) {s : LockedPod sim}
    (hfree : s.writer = false) :
    (method call).run (exec scanPage) s =
      ((call.apply s.pod.server.rooms).1, { s with pod := { s.pod with
        server := { s.pod.server with rooms := (call.apply s.pod.server.rooms).2 } } }) := by
  rw [method, run_rooms, RoomLock.code_run call (s := s.rooms) hfree]
  rfl

/-- A call that is not interrupted is the operation of `Pod`. -/
theorem steps_run (scanPage : ScanPolicy) (op : PodOp) {s : LockedPod sim}
    (hfree : s.writer = false) :
    (steps op).run (exec scanPage) s =
      ((Pod.exec scanPage op s.pod).1, { s with pod := (Pod.exec scanPage op s.pod).2 }) := by
  cases op with
  | server op =>
    cases op with
    | isInMaintenanceMode | canCreateRoom | createRoomWithId _ _ _ | getRoomStatus _
    | closeRoom _ | getRoomCount | getMaxRooms =>
      simp only [steps, Prog.run_bind, method_run scanPage _ hfree]
      rfl
    | _ => rfl
  | setMaintenanceMode _ | getAllRooms =>
    simp only [steps, Prog.run_bind, method_run scanPage _ hfree]
    rfl
  | _ => rfl

end LockedPod
end PokemonServer
