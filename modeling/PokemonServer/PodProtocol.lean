import PokemonServer.LockedPod
import PokemonServer.PodOps
import PokemonServer.RoomCapacity

/-!
# The phases of a pod's threads

A thread's phase is its position in the critical sections of RoomManager, whether it
has found, in the section it is in, that no maintenance is going on, and how far it
has come in GracefulShutdown. Every thread keeps to the protocol; the thread of
GracefulShutdown comes to `done` when its closing loop ends.
-/

namespace PokemonServer
open Interleaving

inductive DrainPhase where
  | serving
  | maintaining
  | closing (rest : List String)
  | done
  deriving DecidableEq

namespace DrainPhase

def settled : DrainPhase → DrainPhase
  | .closing [] => .done
  | d => d

def after : DrainPhase → (op : RoomOp) → op.Res → DrainPhase
  | .serving, .setMaintaining _, _ => .maintaining
  | .maintaining, .copyRooms, rooms => .closing (inOrder rooms.keys)
  | .closing (roomId :: rest), .find key, none =>
    if key = roomId then .closing rest else .closing (roomId :: rest)
  | .closing (roomId :: rest), .erase key, _ =>
    if key = roomId then .closing rest else .closing (roomId :: rest)
  | d, .unlock, _ | d, .unlockShared, _ => d.settled
  | d, _, _ => d

theorem after_unlock (d : DrainPhase) : d.after .unlock () = d.settled := by
  cases d with
  | closing rest => cases rest <;> rfl
  | _ => rfl

theorem after_unlockShared (d : DrainPhase) : d.after .unlockShared () = d.settled := by
  cases d with
  | closing rest => cases rest <;> rfl
  | _ => rfl

end DrainPhase

structure StepPhase where
  lock : LockPhase
  isOpen : Bool
  drain : DrainPhase

namespace StepPhase

def opened (φ : StepPhase) : (op : RoomOp) → op.Res → Bool
  | .isMaintaining, isMaintaining =>
    match φ.lock with
    | .locked => !isMaintaining
    | _ => φ.isOpen
  | .unlock, _ => false
  | _, _ => φ.isOpen

/-- Maintenance is never switched off, and a room is added by CreateRoomWithId only,
after the test for maintenance. -/
def permits (φ : StepPhase) : RoomOp → Bool
  | .setMaintaining isMaintaining => isMaintaining
  | .generateRoomId _ => false
  | .isFull =>
    match φ.lock with
    | .locked => φ.isOpen
    | _ => true
  | _ => true

def next (φ : StepPhase) : (op : StepOp) → op.Res → Option StepPhase
  | .room op, res =>
    if φ.permits op then
      (RoomLock.next φ.lock op res).map fun lock => ⟨lock, φ.opened op res, φ.drain.after op res⟩
    else none
  | .pod op, _ => if op.callsRooms then none else some φ

def idle (d : DrainPhase) : StepPhase := ⟨.outside, false, d⟩

def Idle (φ : StepPhase) : Prop := ∃ d, φ = idle d

end StepPhase

def stepProtocol (podIp : String) :
    Protocol (PodRequest podIp) StepOp StepOp.Res StepPhase where
  start _ := .idle .serving
  next _ := StepPhase.next
  final := StepPhase.Idle

namespace LockedPod
open StepPhase

def Any : (op : StepOp) → op.Res → Prop := fun _ _ => True

variable {podIp : String} {req : PodRequest podIp} {isOpen : Bool} {d : DrainPhase}

abbrev Ends {α : Type} (req : PodRequest podIp) (Q : α → StepPhase → Prop) (φ : StepPhase)
    (p : Steps α) : Prop := (stepProtocol podIp).EndsIn Any req Q φ p

def onRooms (p : RoomLock.Method) : Steps RoomReply := p.expand fun o => .op (StepOp.room o)

section methods
open RoomLock

theorem unlockWith_ends (reply : RoomReply) :
    Ends req (fun _ => Idle) ⟨.locked, isOpen, d⟩ (onRooms (unlockWith reply)) := by
  intro _ _
  exact ⟨_, rfl, _, rfl⟩

theorem unlockSharedWith_ends (reply : RoomReply) :
    Ends req (fun _ => Idle) ⟨.shared, false, d⟩ (onRooms (unlockSharedWith reply)) := by
  intro _ _
  exact ⟨_, rfl, _, rfl⟩

theorem addRoom_ends {roomId roomName : String} {maxPlayers : ℤ} (h : 0 ≤ maxPlayers) :
    Ends req (fun _ => Idle) ⟨.free roomId, true, d⟩
      (onRooms (addRoom roomId roomName maxPlayers)) := by
  intro res _
  refine ⟨⟨.inserted, true, d.after (.insert roomId (newRoom roomId roomName maxPlayers)) res⟩, ?_,
    fun _ _ => ⟨_, rfl, unlockWith_ends _⟩⟩
  simp [stepProtocol, StepPhase.next, permits, RoomLock.next, newRoom, h, opened]

theorem createRoomWithId_ends (roomId roomName : String) {maxPlayers : ℤ} (h : 0 ≤ maxPlayers) :
    Ends req (fun _ => Idle) (idle d)
      (onRooms (createRoomWithId roomId roomName maxPlayers)) := by
  intro _ _
  refine ⟨_, rfl, fun maintaining _ => ⟨_, rfl, ?_⟩⟩
  cases maintaining with
  | true => exact unlockWith_ends _
  | false =>
  intro full _
  cases full with
  | true => exact ⟨_, rfl, unlockWith_ends _⟩
  | false =>
  refine ⟨_, rfl, fun room _ => ?_⟩
  cases room with
  | some room => exact ⟨_, rfl, unlockWith_ends _⟩
  | none => exact ⟨_, rfl, addRoom_ends h⟩

theorem getRoomStatus_ends (roomId : String) :
    Ends req (fun _ => Idle) (idle d) (onRooms (getRoomStatus roomId)) := by
  intro _ _
  exact ⟨_, rfl, fun _ _ => ⟨_, rfl, unlockSharedWith_ends _⟩⟩

theorem eraseRoom_ends (roomId : String) :
    Ends req (fun _ => Idle) ⟨.found roomId, false, d⟩
      (onRooms (do
        let _ ← .op (RoomOp.erase roomId)
        let _ ← .op RoomOp.fetchSub
        unlockWith (.bool true))) := by
  intro res _
  refine ⟨⟨.erased, false, d.after (.erase roomId) res⟩, ?_,
    fun _ _ => ⟨_, rfl, unlockWith_ends _⟩⟩
  simp [stepProtocol, StepPhase.next, permits, RoomLock.next, opened]

theorem closeRoom_ends (roomId : String) :
    Ends req (fun _ => Idle) (idle d) (onRooms (closeRoom roomId)) := by
  intro _ _
  refine ⟨_, rfl, fun room _ => ?_⟩
  cases room with
  | none => exact ⟨_, rfl, unlockWith_ends _⟩
  | some room => exact ⟨_, rfl, eraseRoom_ends roomId⟩

theorem canCreateRoom_ends :
    Ends req (fun _ => Idle) (idle d) (onRooms canCreateRoom) := by
  intro _ _
  refine ⟨_, rfl, fun maintaining _ => ⟨_, rfl, ?_⟩⟩
  cases maintaining with
  | true => exact unlockSharedWith_ends _
  | false =>
    intro full _
    exact ⟨_, rfl, unlockSharedWith_ends _⟩

theorem getAllRooms_ends : Ends req (fun _ => Idle) (idle d) (onRooms getAllRooms) := by
  intro _ _
  exact ⟨_, rfl, fun _ _ => ⟨_, rfl, unlockSharedWith_ends _⟩⟩

theorem getMaxRooms_ends : Ends req (fun _ => Idle) (idle d) (onRooms getMaxRooms) := by
  intro _ _
  exact ⟨_, rfl, fun _ _ => ⟨_, rfl, unlockSharedWith_ends _⟩⟩

end methods

theorem getRoomCount_ends : Ends req (fun _ => Idle) (idle d) (onRooms RoomLock.getRoomCount) :=
  fun _ _ => ⟨_, rfl, _, rfl⟩

theorem isInMaintenanceMode_ends :
    Ends req (fun _ => Idle) (idle d) (onRooms RoomLock.isInMaintenanceMode) :=
  fun _ _ => ⟨_, rfl, _, rfl⟩

theorem setMaintenanceMode_ends :
    Ends req (fun _ => Idle) (idle d) (onRooms (RoomLock.setMaintenanceMode true)) :=
  fun _ _ => ⟨_, rfl, _, rfl⟩

theorem steps_ends {op : PodOp} (hop : op.Served) {φ : StepPhase} (hφ : Idle φ) :
    Ends req (fun _ => Idle) φ (steps op) := by
  obtain ⟨d, rfl⟩ := hφ
  cases op with
  | server op =>
    cases op with
    | isInMaintenanceMode => exact isInMaintenanceMode_ends.bind fun _ _ h => h
    | canCreateRoom => exact canCreateRoom_ends.bind fun _ _ h => h
    | createRoomWithId roomId roomName maxPlayers =>
      exact (createRoomWithId_ends roomId roomName hop).bind fun _ _ h => h
    | getRoomStatus roomId => exact (getRoomStatus_ends roomId).bind fun _ _ h => h
    | closeRoom roomId => exact (closeRoom_ends roomId).bind fun _ _ h => h
    | getRoomCount => exact getRoomCount_ends.bind fun _ _ h => h
    | getMaxRooms => exact getMaxRooms_ends.bind fun _ _ h => h
    | _ => exact fun _ _ => ⟨_, rfl, _, rfl⟩
  | setMaintenanceMode isMaintaining =>
    obtain rfl : isMaintaining = true := hop
    exact setMaintenanceMode_ends.bind fun _ _ h => h
  | getAllRooms => exact getAllRooms_ends.bind fun _ _ h => h
  | _ => exact fun _ _ => ⟨_, rfl, _, rfl⟩

theorem code_follows (cfg : ServiceConfig) (req : PodRequest cfg.podIp) :
    (stepProtocol cfg.podIp).Follows Any req (.idle .serving) (code cfg req) :=
  (Protocol.EndsIn.expand (fun _ hop _ => steps_ends hop) (Pod.code_served req)
    ⟨_, rfl⟩).follows fun _ _ h => h

section drain

theorem waitForRooms_ends (turns : ℕ) :
    Ends req (fun _ ψ => ψ = idle .maintaining) (idle .maintaining)
      ((Pod.waitForRooms turns).expand steps) := by
  induction turns with
  | zero => exact rfl
  | succ turns ih => exact fun _ _ => ⟨_, rfl, fun _ _ => ⟨_, rfl, ih⟩⟩

theorem snapshot_ends :
    Ends req (fun roomIds ψ => ψ = idle (DrainPhase.closing roomIds).settled)
      (idle .maintaining) (steps .getAllRooms) :=
  fun _ _ => ⟨_, rfl, fun _ _ => ⟨_, rfl, fun _ _ =>
    ⟨_, rfl, congrArg idle (DrainPhase.after_unlockShared _)⟩⟩⟩

theorem closing_ends (roomId : String) (rest : List String) :
    Ends req (fun _ ψ => ψ = idle (DrainPhase.closing rest).settled)
      (idle (.closing (roomId :: rest))) (steps (.server (.closeRoom roomId))) := by
  refine fun _ _ => ⟨⟨.locked, false, .closing (roomId :: rest)⟩, rfl, fun room _ => ?_⟩
  cases room with
  | none =>
    refine ⟨⟨.locked, false, .closing rest⟩, ?_,
      fun _ _ => ⟨_, rfl, congrArg idle (DrainPhase.after_unlock _)⟩⟩
    simp [stepProtocol, StepPhase.next, permits, RoomLock.next, opened, DrainPhase.after]
  | some room =>
    refine ⟨⟨.found roomId, false, .closing (roomId :: rest)⟩, rfl, fun _ _ => ?_⟩
    refine ⟨⟨.erased, false, .closing rest⟩, ?_, fun _ _ => ⟨⟨.locked, false, .closing rest⟩, ?_,
      fun _ _ => ⟨_, rfl, congrArg idle (DrainPhase.after_unlock _)⟩⟩⟩
    · simp [stepProtocol, StepPhase.next, permits, RoomLock.next, opened, DrainPhase.after]
    · cases rest <;> rfl

theorem closeRooms_ends (roomIds : List String) :
    Ends req (fun _ ψ => ψ = idle .done) (idle (DrainPhase.closing roomIds).settled)
      ((Pod.closeRooms roomIds).expand steps) := by
  induction roomIds with
  | nil => exact rfl
  | cons roomId roomIds ih =>
    refine (closing_ends roomId roomIds).bind ?_
    rintro _ ψ rfl
    exact ih

theorem drain_ends : Ends req (fun _ ψ => ψ = idle .done) (idle .serving)
    (Pod.drain.expand steps) := by
  refine fun _ _ => ⟨idle .maintaining, rfl, ?_⟩
  show Ends req _ _ ((Pod.waitForRooms 5 >>= fun _ =>
    Prog.op PodOp.getAllRooms >>= Pod.closeRooms).expand steps)
  rw [Prog.expand_bind]
  refine (waitForRooms_ends 5).bind ?_
  rintro _ ψ rfl
  refine snapshot_ends.bind ?_
  rintro roomIds ψ rfl
  exact closeRooms_ends roomIds

end drain

end LockedPod
end PokemonServer
