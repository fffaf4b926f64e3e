import PokemonServer.RoomAtomicity
import PokemonServer.RoomsClosed

/-!
# What a pod's threads see of the lock

Between `LockedPod`, where every method of RoomManager is a sequence of steps, and
`Pod`, where it is one, stands a pod whose methods are those of `AtomicRooms`: at once,
but for the flag. The first has no other behaviour than this one; this one has no other
than `Pod` as long as maintenance does not begin between a creation's look at the flag
and its effect.
-/

namespace PokemonServer
open Interleaving

inductive AtomicPodOp where
  | room (op : AtomicOp)
  | pod (op : PodOp)

abbrev AtomicPodOp.Res : AtomicPodOp → Type
  | .room op => op.Res
  | .pod op => op.Res

def PodOp.roomCall : (op : PodOp) → Option (RoomCall × (RoomReply → op.Res))
  | .server .isInMaintenanceMode => some (.isInMaintenanceMode, RoomReply.toBool)
  | .server .canCreateRoom => some (.canCreateRoom, RoomReply.toBool)
  | .server (.createRoomWithId roomId roomName maxPlayers) =>
    some (.createRoomWithId roomId roomName maxPlayers, RoomReply.toRoomId)
  | .server (.getRoomStatus roomId) => some (.getRoomStatus roomId, RoomReply.toStatus)
  | .server (.closeRoom roomId) => some (.closeRoom roomId, RoomReply.toBool)
  | .server .getRoomCount => some (.getRoomCount, RoomReply.toCount)
  | .server .getMaxRooms => some (.getMaxRooms, RoomReply.toCapacity)
  | .setMaintenanceMode isMaintaining => some (.setMaintenanceMode isMaintaining, fun _ => ())
  | .getAllRooms => some (.getAllRooms, fun reply => inOrder reply.toRooms.keys)
  | _ => none

namespace Pod
variable {sim : Simulator}

def withRooms (p : Pod sim) (rooms : RoomManager) : Pod sim :=
  { p with server := { p.server with rooms := rooms } }

theorem exec_of_roomCall {op : PodOp} {call : RoomCall} {value : RoomReply → op.Res}
    (h : op.roomCall = some (call, value)) (scanPage : ScanPolicy) (p : Pod sim) :
    exec scanPage op p =
      (value (call.apply p.server.rooms).1, p.withRooms (call.apply p.server.rooms).2) := by
  cases op with
  | server op =>
    cases op with
    | createSession _ _ | processTurn _ _ | getState _ | destroySession _ | redis _ => cases h
    | _ =>
      cases h
      rfl
  | setMaintenanceMode _ | getAllRooms =>
    cases h
    rfl
  | _ => cases h

theorem exec_withRooms {op : PodOp} (h : op.roomCall = none) (scanPage : ScanPolicy)
    (p : Pod sim) (rooms : RoomManager) :
    exec scanPage op (p.withRooms rooms) =
      ((exec scanPage op p).1, (exec scanPage op p).2.withRooms rooms) := by
  cases op with
  | server op =>
    cases op with
    | createSession _ _ | processTurn _ _ | getState _ | destroySession _ => rfl
    | redis op => cases op <;> rfl
    | _ => cases h
  | setMaintenanceMode _ | getAllRooms => cases h
  | _ => rfl

theorem withRooms_rooms (p : Pod sim) : p.withRooms p.server.rooms = p := rfl

theorem enabled_withRooms (op : PodOp) (p : Pod sim) (rooms : RoomManager) :
    enabled op (p.withRooms rooms) = enabled op p := by
  cases op <;> rfl

theorem enabled_of_roomCall {op : PodOp} {x : RoomCall × (RoomReply → op.Res)}
    (h : op.roomCall = some x) (p : Pod sim) : enabled op p = true := by
  cases op with
  | enter _ | join _ | accept | awaitHandlers => cases h
  | _ => rfl

end Pod

namespace LockedPod

theorem steps_eq (op : PodOp) : steps op =
    match op.roomCall with
    | some (call, value) => method call >>= fun reply => .ret (value reply)
    | none => .op (StepOp.pod op) := by
  cases op with
  | server op => cases op <;> rfl
  | _ => rfl

end LockedPod

namespace AtomicPod

abbrev Steps := Prog AtomicPodOp AtomicPodOp.Res

def method (call : RoomCall) : Steps RoomReply :=
  (AtomicRooms.code call).expand fun o => .op (AtomicPodOp.room o)

def steps (op : PodOp) : Steps op.Res :=
  match op.roomCall with
  | some (call, value) => do
    return value (← method call)
  | none => .op (AtomicPodOp.pod op)

def code (cfg : ServiceConfig) (req : PodRequest cfg.podIp) : Steps PodResult :=
  (Pod.code cfg req).expand steps

variable {sim : Simulator}

def exec (scanPage : ScanPolicy) : (op : AtomicPodOp) → Pod sim → op.Res × Pod sim
  | .room op, p =>
    let r := AtomicRooms.exec op p.server.rooms
    (r.1, p.withRooms r.2)
  | .pod op, p => Pod.exec scanPage op p

def enabled : AtomicPodOp → Pod sim → Bool
  | .room _, _ => true
  | .pod op, p => Pod.enabled op p

def system (sim : Simulator) (cfg : ServiceConfig) (scanPage : ScanPolicy) :
    System (Pod sim) (PodRequest cfg.podIp) AtomicPodOp AtomicPodOp.Res PodResult where
  code := code cfg
  exec := exec scanPage
  enabled := enabled

end AtomicPod

section locked
variable {sim : Simulator} {cfg : ServiceConfig} {scanPage : ScanPolicy}

def Exchange.inPod (x : Exchange AtomicOp AtomicOp.Res) : Exchange AtomicPodOp AtomicPodOp.Res :=
  ⟨.room x.op, x.res⟩

inductive LockedPodStep : LockStage → Exchange StepOp StepOp.Res → LockStage →
    Option (Exchange AtomicPodOp AtomicPodOp.Res) → Prop
  | room {φ φ' : LockStage} {op : RoomOp} {r : op.Res} {x : Option (Exchange AtomicOp AtomicOp.Res)} :
      LockStage.Step φ ⟨op, r⟩ φ' x → LockedPodStep φ ⟨.room op, r⟩ φ' (x.map Exchange.inPod)
  | pod {op : PodOp} (r : op.Res) : op.roomCall = none →
      LockedPodStep .idle ⟨.pod op, r⟩ .idle (some ⟨.pod op, r⟩)

def podDiscipline : Discipline AtomicPodOp AtomicPodOp.Res StepOp StepOp.Res LockStage where
  idle := .idle
  possible
    | .room op, r => op.Possible r
    | .pod _, _ => True
  step := LockedPodStep

namespace LockedPod
open Discipline

theorem method_mirrors {φ : LockStage} {p' : RoomLock.Method}
    {p : Prog AtomicOp AtomicOp.Res RoomReply} (h : lockDiscipline.Mirrors φ p' p) :
    podDiscipline.Mirrors φ (p'.expand fun o => .op (StepOp.room o))
      (p.expand fun o => .op (AtomicPodOp.room o)) := by
  induction p' generalizing φ p with
  | ret a =>
    obtain ⟨rfl, rfl⟩ := h
    exact .ret a
  | call op next ih =>
    intro r hr
    obtain ⟨φ', x, q, hstep, hpath, hrest⟩ := h r hr
    refine ⟨φ', x.map Exchange.inPod, _, .room hstep, ?_, ih r hrest⟩
    cases x with
    | none =>
      obtain rfl := Path.nil_iff.mp hpath
      exact .nil
    | some x =>
      obtain ⟨onext, rfl, hnil⟩ := Path.cons_iff.mp hpath
      obtain rfl := Path.nil_iff.mp hnil
      exact .cons .nil

theorem steps_mirror (op : PodOp) :
    podDiscipline.Mirrors .idle (steps op) (AtomicPod.steps op) := by
  rw [steps_eq, AtomicPod.steps]
  cases hcall : op.roomCall with
  | none => exact .commit fun r _ => ⟨.idle, r, .pod r hcall, .ret r⟩
  | some x => exact (method_mirrors (RoomLock.code_mirrors x.1)).bind fun _ => .ret _

/-- The pod with its lock, and the pod of atomic methods: the same but for the rooms,
and the rooms as `RoomAtomicity` says. -/
structure Implements (a : Pod sim) (s : LockedPod sim) (φ : ℕ → LockStage) : Prop where
  rooms : s.rooms.Implements a.server.rooms φ
  rest : s.pod = a.withRooms s.pod.server.rooms

namespace Implements
variable {a : Pod sim} {s : LockedPod sim} {φ : ℕ → LockStage} {φ' : LockStage} {t : ℕ}

theorem init {maxRooms : ℕ} {redis : Store} :
    Implements (Pod.started (GameService.initState maxRooms redis) : Pod sim)
      (started (GameService.initState maxRooms redis)) fun _ => .idle where
  rooms := .init maxRooms
  rest := rfl

theorem eq_of_idle (h : Implements a s φ) (hidle : ∀ t, φ t = .idle) : s.pod = a := by
  have hrooms : s.pod.server.rooms = a.server.rooms := h.rooms.eq_of_idle hidle
  rw [h.rest, hrooms]
  rfl

theorem room {op : RoomOp} {x : Option (Exchange AtomicOp AtomicOp.Res)} (h : Implements a s φ)
    (henabled : RoomLock.enabled op s.rooms = true)
    (hstep : LockStage.Step (φ t) ⟨op, (RoomLock.exec op s.rooms).1⟩ φ' x) :
    ∃ a', (AtomicPod.system sim cfg scanPage).Commits (x.map Exchange.inPod) a a' ∧
      Implements a' (s.withRooms (RoomLock.exec op s.rooms).2) (Function.update φ t φ') := by
  obtain ⟨m, hcommits, hrooms⟩ := h.rooms.step henabled hstep
  refine ⟨a.withRooms m, ?_, hrooms, ?_⟩
  · cases x with
    | none =>
      obtain rfl : m = a.server.rooms := hcommits
      exact a.withRooms_rooms
    | some x =>
      have hexec : AtomicRooms.exec x.op a.server.rooms = (x.res, m) := hcommits.2
      refine ⟨rfl, ?_⟩
      show ((AtomicRooms.exec x.op a.server.rooms).1,
        a.withRooms (AtomicRooms.exec x.op a.server.rooms).2) = _
      rw [hexec]
      rfl
  · show s.pod.withRooms (RoomLock.exec op s.rooms).2.manager = _
    rw [h.rest]
    rfl

theorem pod {op : PodOp} (h : Implements a s φ) (hop : op.roomCall = none)
    (ht : φ t = .idle) (henabled : Pod.enabled op s.pod = true) :
    (AtomicPod.system sim cfg scanPage).Commits (some ⟨.pod op, (Pod.exec scanPage op s.pod).1⟩) a
        (Pod.exec scanPage op a).2 ∧
      Implements (Pod.exec scanPage op a).2 { s with pod := (Pod.exec scanPage op s.pod).2 }
        (Function.update φ t .idle) := by
  have hupdate : Function.update φ t .idle = φ := by
    rw [← ht, Function.update_eq_self]
  have hpod := Pod.exec_withRooms hop scanPage a s.pod.server.rooms
  rw [← h.rest] at hpod
  have hrooms : (Pod.exec scanPage op a).2.server.rooms = a.server.rooms := by
    have hself := Pod.exec_withRooms hop scanPage a a.server.rooms
    rw [Pod.withRooms_rooms] at hself
    exact congrArg (fun r => r.2.server.rooms) hself
  rw [hupdate, hpod]
  refine ⟨⟨?_, rfl⟩, ?_, rfl⟩
  · rw [h.rest, Pod.enabled_withRooms] at henabled
    exact henabled
  · rw [hrooms]
    exact h.rooms

end Implements

theorem refines_atomicPod : (AtomicPod.system sim cfg scanPage).Refines podDiscipline
    (system sim cfg scanPage) (fun _ _ => True) Implements where
  possible op s := by
    cases op with
    | room op => exact RoomLock.refines_atomicRooms.possible op s.rooms
    | pod op => trivial
  code req := Mirrors.expand steps_mirror (Pod.code cfg req)
  step a s φ t op φ' x h henabled _ hstep := by
    generalize hφ : φ t = ψ at hstep
    cases op with
    | room op =>
      cases hstep with
      | room hstep => exact h.room henabled (hφ ▸ hstep)
    | pod op =>
      cases hstep with
      | pod r hop => exact ⟨_, h.pod hop hφ henabled⟩

/-- Every interleaving of a pod's threads, with the steps of its lock, is one of a pod
whose methods are atomic but for the flag. -/
theorem exists_atomicPod_run (maxRooms : ℕ) (redis : Store) {as : List (Action (PodRequest cfg.podIp))}
    {c : Config (LockedPod sim) (PodRequest cfg.podIp) StepOp StepOp.Res PodResult}
    (h : (system sim cfg scanPage).replay (fun _ _ => true)
      (Config.init (started (GameService.initState maxRooms redis))) as = some c) :
    ∃ bs d, Explains (AtomicPod.system sim cfg scanPage) LockedPod.pod
      (Pod.started (GameService.initState maxRooms redis)) as c bs d :=
  refines_atomicPod.exists_explains (fun _ _ _ _ _ _ _ _ _ => trivial)
    (fun _ _ _ h hidle => (h.eq_of_idle hidle).symm) .init h

end LockedPod

end locked

theorem RoomCall.apply_isMaintaining {call : RoomCall} {m : RoomManager}
    (h : ∀ b, call ≠ .setMaintenanceMode b) :
    (call.apply m).2.isMaintaining = m.isMaintaining := by
  cases call with
  | createRoom roomName maxPlayers newId =>
    simp only [apply, RoomManager.createRoom]
    split_ifs <;> rfl
  | createRoomWithId roomId roomName maxPlayers =>
    simp only [apply, RoomManager.createRoomWithId]
    split_ifs <;> rfl
  | closeRoom roomId =>
    simp only [apply, RoomManager.closeRoom]
    split_ifs <;> rfl
  | updateRoomActivity =>
    simp only [apply, RoomManager.updateRoomActivity, RoomManager.foldl_tickRoom]
  | setMaintenanceMode b => exact absurd rfl (h b)
  | _ => rfl

theorem RoomCall.apply_refused {call : RoomCall} {refusal : RoomReply} {m : RoomManager}
    (h : call.refusal = some refusal) (hm : m.isMaintaining = true) :
    call.apply m = (refusal, m) := by
  cases call with
  | createRoom roomName maxPlayers newId =>
    cases h
    simp [apply, RoomManager.createRoom, hm]
  | createRoomWithId roomId roomName maxPlayers =>
    cases h
    simp [apply, RoomManager.createRoomWithId, hm]
  | canCreateRoom =>
    cases h
    simp [apply, RoomManager.canCreateRoom, hm]
  | _ => cases h

theorem RoomCall.ne_setMaintenanceMode {call : RoomCall} {refusal : RoomReply}
    (h : call.refusal = some refusal) (b : Bool) : call ≠ .setMaintenanceMode b := by
  rintro rfl
  cases h

theorem AtomicRooms.exec_pastFlag {call : RoomCall} {refusal : RoomReply} {m : RoomManager}
    (h : call.refusal = some refusal) (hm : m.isMaintaining = false) :
    exec (.pastFlag call) m = call.apply m := by
  have hself : m.setMaintenanceMode false = m := by
    rw [← hm]
    rfl
  have hflag := call.apply_isMaintaining (m := m) (RoomCall.ne_setMaintenanceMode h)
  simp only [exec, hself]
  rw [← hflag]
  rfl

/-- A thread has found the flag not set, and the rest of the operation is ahead. -/
inductive FlagStage where
  | idle
  | asked (op : PodOp)

inductive FlagStep : FlagStage → Exchange AtomicPodOp AtomicPodOp.Res → FlagStage →
    Option (Exchange PodOp PodOp.Res) → Prop
  | pod {op : PodOp} (r : op.Res) : op.roomCall = none →
      FlagStep .idle ⟨.pod op, r⟩ .idle (some ⟨op, r⟩)
  | method {op : PodOp} {call : RoomCall} {value : RoomReply → op.Res} (reply : RoomReply) :
      op.roomCall = some (call, value) → call.refusal = none →
      FlagStep .idle ⟨.room (.method call), reply⟩ .idle (some ⟨op, value reply⟩)
  | refused {op : PodOp} {call : RoomCall} {value : RoomReply → op.Res} {refusal : RoomReply} :
      op.roomCall = some (call, value) → call.refusal = some refusal →
      FlagStep .idle ⟨.room .readFlag, true⟩ .idle (some ⟨op, value refusal⟩)
  | ask (op : PodOp) : FlagStep .idle ⟨.room .readFlag, false⟩ (.asked op) none
  | pastFlag {op : PodOp} {call : RoomCall} {value : RoomReply → op.Res} {refusal : RoomReply}
      (reply : RoomReply) : op.roomCall = some (call, value) → call.refusal = some refusal →
      FlagStep (.asked op) ⟨.room (.pastFlag call), reply⟩ .idle (some ⟨op, value reply⟩)

def flagDiscipline : Discipline PodOp PodOp.Res AtomicPodOp AtomicPodOp.Res FlagStage where
  idle := .idle
  possible _ _ := True
  step := FlagStep

namespace AtomicPod
open Discipline
variable {sim : Simulator} {cfg : ServiceConfig} {scanPage : ScanPolicy}

theorem steps_mirror (op : PodOp) :
    flagDiscipline.Mirrors .idle (steps op) (.op op) := by
  rw [steps]
  cases hcall : op.roomCall with
  | none => exact .commit fun r _ => ⟨.idle, r, .pod r hcall, .ret r⟩
  | some x =>
    obtain ⟨call, value⟩ := x
    simp only [method, AtomicRooms.code]
    cases hrefusal : call.refusal with
    | none => exact .commit fun reply _ => ⟨.idle, _, .method reply hcall hrefusal, .ret _⟩
    | some refusal =>
      intro maintaining _
      cases maintaining with
      | true => exact ⟨.idle, some ⟨_, _⟩, _, .refused hcall hrefusal, .cons .nil, .ret _⟩
      | false =>
        refine ⟨.asked op, none, _, .ask op, .nil, .commit fun reply _ => ?_⟩
        exact ⟨.idle, _, .pastFlag reply hcall hrefusal, .ret _⟩

def BeginsAlone (φ : ℕ → FlagStage) (op : AtomicPodOp) : Prop :=
  op = .room (.method (.setMaintenanceMode true)) → ∀ t, φ t = .idle

structure Simulates (a p : Pod sim) (φ : ℕ → FlagStage) : Prop where
  eq : p = a
  knows : ∀ t op, φ t = .asked op → a.server.rooms.isMaintaining = false

namespace Simulates
variable {a p : Pod sim} {φ : ℕ → FlagStage} {t : ℕ}

theorem commit {a' : Pod sim} (h : Simulates a p φ)
    (hflag : (∀ t op, φ t ≠ .asked op) ∨ a'.server.rooms.isMaintaining = false ∨
      a'.server.rooms.isMaintaining = a.server.rooms.isMaintaining) :
    Simulates a' a' (Function.update φ t .idle) where
  eq := rfl
  knows u op hu := by
    by_cases hut : u = t
    · rw [hut, Function.update_self] at hu
      cases hu
    · rw [Function.update_of_ne hut] at hu
      rcases hflag with hnone | hfalse | hsame
      · exact absurd hu (hnone u op)
      · exact hfalse
      · rw [hsame]
        exact h.knows u op hu

theorem step {op : AtomicPodOp} {φ' : FlagStage} {x : Option (Exchange PodOp PodOp.Res)}
    (h : Simulates a p φ) (henabled : enabled op p = true) (halone : BeginsAlone φ op)
    (hstep : FlagStep (φ t) ⟨op, (exec scanPage op p).1⟩ φ' x) :
    ∃ a', (Pod.system sim cfg scanPage).Commits x a a' ∧
      Simulates a' (exec scanPage op p).2 (Function.update φ t φ') := by
  obtain rfl := h.eq
  generalize hφ : φ t = ψ at hstep
  generalize hr : (exec scanPage op p).1 = r at hstep
  cases hstep with
  | @pod op r hop =>
    refine ⟨(Pod.exec scanPage op p).2, ⟨henabled, ?_⟩, h.commit (Or.inr (Or.inr ?_))⟩
    · rw [← hr]
      rfl
    · have hself := Pod.exec_withRooms hop scanPage p p.server.rooms
      exact congrArg (fun r => r.2.server.rooms.isMaintaining) hself
  | @method op call value reply hop hrefusal =>
    have hexec := Pod.exec_of_roomCall hop scanPage p
    refine ⟨_, ⟨Pod.enabled_of_roomCall hop p, hexec.trans (by rw [← hr]; rfl)⟩, h.commit ?_⟩
    cases call with
    | setMaintenanceMode b =>
      cases b with
      | true =>
        refine Or.inl fun u o hu => ?_
        rw [halone rfl u] at hu
        cases hu
      | false => exact Or.inr (Or.inl rfl)
    | _ =>
      exact Or.inr (Or.inr (RoomCall.apply_isMaintaining fun b hb => RoomCall.noConfusion hb))
  | refused hop hrefusal =>
    have hexec := Pod.exec_of_roomCall hop scanPage p
    rw [RoomCall.apply_refused hrefusal hr] at hexec
    exact ⟨p, ⟨Pod.enabled_of_roomCall hop p, hexec⟩, h.commit (Or.inr (Or.inr rfl))⟩
  | ask op =>
    refine ⟨p, rfl, rfl, fun u o hu => ?_⟩
    exact hr
  | @pastFlag op call value refusal reply hop hrefusal =>
    have hpast := AtomicRooms.exec_pastFlag hrefusal (h.knows t _ hφ)
    have hrest : exec scanPage (.room (.pastFlag call)) p =
        ((call.apply p.server.rooms).1, p.withRooms (call.apply p.server.rooms).2) := by
      show ((AtomicRooms.exec (.pastFlag call) p.server.rooms).1,
        p.withRooms (AtomicRooms.exec (.pastFlag call) p.server.rooms).2) = _
      rw [hpast]
    have hexec := Pod.exec_of_roomCall hop scanPage p
    rw [hrest] at hr ⊢
    refine ⟨_, ⟨Pod.enabled_of_roomCall hop p, hexec.trans (by rw [← hr])⟩,
      h.commit (Or.inr (Or.inr ?_))⟩
    exact RoomCall.apply_isMaintaining (RoomCall.ne_setMaintenanceMode hrefusal)

end Simulates

theorem refines_pod : (Pod.system sim cfg scanPage).Refines flagDiscipline
    (system sim cfg scanPage) BeginsAlone Simulates where
  possible _ _ := trivial
  code req := Mirrors.expand_left steps_mirror (Pod.code cfg req)
  step _ _ _ _ _ _ _ h henabled halone hstep := h.step henabled halone hstep

/-- Maintenance begins only while nobody has the rest of a creation, or of CanCreateRoom,
ahead of it. -/
def beginsAlone {podIp : String}
    (c : Config (Pod sim) (PodRequest podIp) AtomicPodOp AtomicPodOp.Res PodResult) :
    Action (PodRequest podIp) → Bool
  | .start _ => true
  | .run t =>
    match c.pool[t]? with
    | some ⟨_, .call (.room (.method (.setMaintenanceMode true))) _⟩ =>
      c.pool.all fun th => match th.prog with
        | .call (.room (.pastFlag _)) _ => false
        | _ => true
    | _ => true

theorem guards_beginsAlone (scanPage : ScanPolicy) :
    System.Guards flagDiscipline BeginsAlone
      (beginsAlone : Config (Pod sim) (PodRequest cfg.podIp) _ _ _ → _ → Bool) := by
  rintro φ pool c t req op hmatches hok ⟨next, hpool⟩ rfl u
  by_contra hu
  obtain ⟨req', op', next', p, hpool', hm⟩ := hmatches.aboutTo_of_ne_idle hu
  obtain ⟨φ', x, p', hstep, -⟩ := hm (exec scanPage op' c.shared).1 trivial
  have hall : ∀ call, op' ≠ .room (.pastFlag call) := by
    rintro call rfl
    simp only [beginsAlone, hpool] at hok
    have hth := List.all_eq_true.mp hok _ (List.mem_of_getElem? hpool')
    simp only at hth
    cases hth
  generalize hφ : φ u = ψ at hstep
  generalize (exec scanPage op' c.shared).1 = r at hstep
  cases hstep with
  | pastFlag reply hop hrefusal => exact hall _ rfl
  | _ => exact hu hφ

/-- Every run in which maintenance begins alone is one of `Pod`. -/
theorem explained_by_pod (maxRooms : ℕ) (redis : Store) {as : List (Action (PodRequest cfg.podIp))}
    {c : Config (Pod sim) (PodRequest cfg.podIp) AtomicPodOp AtomicPodOp.Res PodResult}
    (h : (system sim cfg scanPage).replay beginsAlone
      (Config.init (Pod.started (GameService.initState maxRooms redis))) as = some c) :
    ∃ bs d, Explains (Pod.system sim cfg scanPage) id
      (Pod.started (GameService.initState maxRooms redis)) as c bs d :=
  refines_pod.exists_explains (guards_beginsAlone scanPage) (fun _ _ _ h _ => h.eq.symm)
    ⟨rfl, fun _ _ h => FlagStage.noConfusion h⟩ h

end AtomicPod

namespace Sample

abbrev atomicProcess :
    System (Pod simulator) (PodRequest podA.address) AtomicPodOp AtomicPodOp.Res PodResult :=
  AtomicPod.system simulator ⟨text, "server-0", podA.address⟩ scanAll

def shutdownInsideCreate : List (Action (PodRequest podA.address)) :=
  launch (.rpc (create "a")) ++ turns 0 4 ++ launch .gracefulShutdown ++ turns 1 2 ++ turns 0 2

end Sample

namespace AtomicPod
open Sample

theorem shutdownInsideCreate_explained : ∃ c bs d,
    atomicProcess.replay beginsAlone
        (Config.init (Pod.started (GameService.initState 10 ∅))) shutdownInsideCreate = some c ∧
      Explains (Pod.system simulator ⟨text, "server-0", podA.address⟩ scanAll) id
        (Pod.started (GameService.initState 10 ∅)) shutdownInsideCreate c bs d ∧
      d.answer 0 = some (.outcome
        (GameService.common .internal "Failed to create room" 4 "Failed to create room")) := by
  have hruns : (atomicProcess.replay beginsAlone
      (Config.init (Pod.started (GameService.initState 10 ∅))) shutdownInsideCreate).any (fun c =>
        decide (c.answer 0 = some (.outcome
          (GameService.common .internal "Failed to create room" 4 "Failed to create room")))) =
            true := by
    decide +kernel
  obtain ⟨c, hc, hcheck⟩ := (Option.any_eq_true _ _).mp hruns
  obtain ⟨bs, d, hexplains⟩ := explained_by_pod 10 ∅ hc
  exact ⟨c, bs, d, hc, hexplains, hexplains.answer_eq (of_decide_eq_true hcheck)⟩

end AtomicPod
end PokemonServer
