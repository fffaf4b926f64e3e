import PokemonServer.EngineLock
import PokemonServer.PodAtomicity

/-!
# The process of one server, with both its locks

The threads of `LockedPod`, where every call of a method of BattleEngine too is the
method of `EngineLock`, step by step. A thread holds at most one lock at a time, so the
lock of BattleEngine is abstracted from as the lock of RoomManager is, and what is left
is the pod of atomic methods.
-/

namespace PokemonServer
open Interleaving

structure SteppedPod (sim : Simulator) where
  locked : LockedPod sim
  writer : Bool
  readers : ℕ

inductive SteppedOp (sim : Simulator) where
  | engine (op : EngineOp sim)
  | step (op : StepOp)

abbrev SteppedOp.Res {sim : Simulator} : SteppedOp sim → Type
  | .engine op => op.Res
  | .step op => op.Res

namespace EngineReply

def toCreated : EngineReply → Except Exn (Except String Unit)
  | .created result => result
  | _ => .ok (.error "")

def toTurn : EngineReply → Except Exn TurnResult
  | .turn result => result
  | _ => .ok ⟨false, .null, ""⟩

def toState : EngineReply → Except Exn (Except String Json)
  | .state result => result
  | _ => .ok (.error "")

def toBool : EngineReply → Bool
  | .bool b => b
  | _ => false

end EngineReply

def StepOp.engineCall : (op : StepOp) → Option (EngineCall × (EngineReply → op.Res))
  | .pod (.server (.createSession sessionId initRequest)) =>
    some (.createSession sessionId initRequest, EngineReply.toCreated)
  | .pod (.server (.processTurn sessionId turnRequest)) =>
    some (.processTurn sessionId turnRequest, EngineReply.toTurn)
  | .pod (.server (.getState sessionId)) => some (.getState sessionId, EngineReply.toState)
  | .pod (.server (.destroySession sessionId)) =>
    some (.destroySession sessionId, EngineReply.toBool)
  | _ => none

namespace LockedPod
variable {sim : Simulator}

def withEngine (s : LockedPod sim) (engine : BattleEngine sim) : LockedPod sim :=
  { s with pod := { s.pod with server := { s.pod.server with engine := engine } } }

theorem exec_of_engineCall {op : StepOp} {call : EngineCall} {value : EngineReply → op.Res}
    (h : op.engineCall = some (call, value)) (scanPage : ScanPolicy) (s : LockedPod sim) :
    exec scanPage op s = (value (call.apply s.pod.server.engine).1,
      s.withEngine (call.apply s.pod.server.engine).2) := by
  cases op with
  | room op => cases h
  | pod op =>
  cases op with
  | server op =>
    cases op with
    | createSession _ _ | processTurn _ _ | getState _ | destroySession _ =>
      cases h
      rfl
    | _ => cases h
  | _ => cases h

theorem exec_engine {op : StepOp} (h : op.engineCall = none) (scanPage : ScanPolicy)
    (s : LockedPod sim) :
    (exec scanPage op s).2.pod.server.engine = s.pod.server.engine := by
  cases op with
  | room op => cases op <;> rfl
  | pod op =>
  cases op with
  | server op =>
    cases op with
    | createSession _ _ | processTurn _ _ | getState _ | destroySession _ => cases h
    | redis op => cases op <;> rfl
    | _ => rfl
  | _ => rfl

theorem enabled_of_engineCall {op : StepOp} {x : EngineCall × (EngineReply → op.Res)}
    (h : op.engineCall = some x) (s : LockedPod sim) : enabled op s = true := by
  cases op with
  | room op => cases h
  | pod op =>
  cases op with
  | server op => rfl
  | _ => cases h

end LockedPod

namespace SteppedPod

abbrev Steps (sim : Simulator) := Prog (SteppedOp sim) SteppedOp.Res

def method {sim : Simulator} (call : EngineCall) : Steps sim EngineReply :=
  (EngineLock.code call).expand fun o => .op (SteppedOp.engine o)

def steps {sim : Simulator} (op : StepOp) : Steps sim op.Res :=
  match op.engineCall with
  | some (call, value) => do
    return value (← method call)
  | none => .op (SteppedOp.step op)

def code (sim : Simulator) (cfg : ServiceConfig) (req : PodRequest cfg.podIp) :
    Steps sim PodResult :=
  (LockedPod.code cfg req).expand steps

variable {sim : Simulator}

def engine (s : SteppedPod sim) : LockedEngine sim :=
  ⟨s.locked.pod.server.engine, s.writer, s.readers⟩

def withEngine (s : SteppedPod sim) (engine : LockedEngine sim) : SteppedPod sim :=
  ⟨s.locked.withEngine engine.engine, engine.writer, engine.readers⟩

def exec (scanPage : ScanPolicy) : (op : SteppedOp sim) → SteppedPod sim → op.Res × SteppedPod sim
  | .engine op, s =>
    ((EngineLock.exec op s.engine).1, s.withEngine (EngineLock.exec op s.engine).2)
  | .step op, s =>
    ((LockedPod.exec scanPage op s.locked).1,
      { s with locked := (LockedPod.exec scanPage op s.locked).2 })

def enabled : SteppedOp sim → SteppedPod sim → Bool
  | .engine op, s => EngineLock.enabled op s.engine
  | .step op, s => LockedPod.enabled op s.locked

def system (sim : Simulator) (cfg : ServiceConfig) (scanPage : ScanPolicy) :
    System (SteppedPod sim) (PodRequest cfg.podIp) (SteppedOp sim) SteppedOp.Res PodResult where
  code := code sim cfg
  exec := exec scanPage
  enabled := enabled

def started (server : ServerState sim Store) : SteppedPod sim :=
  ⟨LockedPod.started server, false, 0⟩

inductive Step : EngineStage sim → Exchange (SteppedOp sim) SteppedOp.Res → EngineStage sim →
    Option (Exchange StepOp StepOp.Res) → Prop
  | silent {φ φ' : EngineStage sim} {op : EngineOp sim} {r : op.Res} :
      EngineStage.Step φ ⟨op, r⟩ φ' none → Step φ ⟨.engine op, r⟩ φ' none
  | commit {φ φ' : EngineStage sim} {op : EngineOp sim} {r : op.Res} {call : EngineCall}
      {reply : EngineReply} {o : StepOp} {value : EngineReply → o.Res} :
      o.engineCall = some (call, value) → EngineStage.Step φ ⟨op, r⟩ φ' (some ⟨call, reply⟩) →
      Step φ ⟨.engine op, r⟩ φ' (some ⟨o, value reply⟩)
  | step {op : StepOp} (r : op.Res) : op.engineCall = none →
      Step .idle ⟨.step op, r⟩ .idle (some ⟨op, r⟩)

def discipline (sim : Simulator) :
    Discipline StepOp StepOp.Res (SteppedOp sim) SteppedOp.Res (EngineStage sim) where
  idle := .idle
  possible
    | .engine op, r => op.Possible r
    | .step _, _ => True
  step := Step

open Discipline

theorem rest_mirrors {β : Type} {φ : EngineStage sim} {p' : EngineLock.Method sim}
    {reply : EngineReply} (value : EngineReply → β)
    (h : (engineDiscipline sim).Mirrors φ p' (.ret reply)) :
    (discipline sim).Mirrors φ
      (p'.expand (fun o => .op (SteppedOp.engine o)) >>= fun reply => .ret (value reply))
      (.ret (value reply)) := by
  induction p' generalizing φ with
  | ret a =>
    obtain ⟨rfl, heq⟩ := h
    cases heq
    exact .ret _
  | call op next ih =>
    intro r hr
    obtain ⟨φ', x, q, hstep, hpath, hrest⟩ := h r hr
    obtain ⟨hx, rfl⟩ := Path.ret_iff.mp hpath
    obtain rfl : x = none := by simpa using hx
    exact ⟨φ', none, _, .silent hstep, .nil, ih r hrest⟩

theorem method_mirrors {φ : EngineStage sim} {p' : EngineLock.Method sim} {o : StepOp}
    {call : EngineCall} {value : EngineReply → o.Res} (ho : o.engineCall = some (call, value))
    (h : (engineDiscipline sim).Mirrors φ p' (.op call)) :
    (discipline sim).Mirrors φ
      (p'.expand (fun o => .op (SteppedOp.engine o)) >>= fun reply => .ret (value reply))
      (.op o) := by
  induction p' generalizing φ with
  | ret a =>
    obtain ⟨-, heq⟩ := h
    cases heq
  | call op next ih =>
    intro r hr
    obtain ⟨φ', x, q, hstep, hpath, hrest⟩ := h r hr
    cases x with
    | none =>
      obtain rfl := Path.nil_iff.mp hpath
      exact ⟨φ', none, _, .silent hstep, .nil, ih r hrest⟩
    | some x =>
      obtain ⟨onext, heq, hnil⟩ := Path.cons_iff.mp hpath
      obtain rfl := Path.nil_iff.mp hnil
      obtain ⟨call', reply⟩ := x
      cases heq
      exact ⟨φ', _, _, .commit ho hstep, .cons .nil, rest_mirrors value hrest⟩

theorem steps_mirror (op : StepOp) :
    (discipline sim).Mirrors .idle (steps op) (.op op) := by
  rw [steps]
  cases hcall : op.engineCall with
  | none => exact .commit fun r _ => ⟨.idle, r, .step r hcall, .ret r⟩
  | some x => exact method_mirrors hcall (EngineLock.code_mirrors x.1)

structure Implements (a : LockedPod sim) (s : SteppedPod sim) (φ : ℕ → EngineStage sim) : Prop where
  locked : s.locked = a
  engine : s.engine.Implements a.pod.server.engine φ

namespace Implements
variable {cfg : ServiceConfig} {scanPage : ScanPolicy} {a : LockedPod sim} {s : SteppedPod sim}
  {φ : ℕ → EngineStage sim} {φ' : EngineStage sim} {t : ℕ}

theorem init (maxRooms : ℕ) (redis : Store) :
    Implements (LockedPod.started (GameService.initState maxRooms redis) : LockedPod sim)
      (started (GameService.initState maxRooms redis)) fun _ => .idle where
  locked := rfl
  engine := .init

theorem withEngine {e : BattleEngine sim} {engine : LockedEngine sim}
    (h : engine.Implements e φ) (s : SteppedPod sim) :
    Implements (s.locked.withEngine e) (s.withEngine engine) φ where
  locked := congrArg s.locked.withEngine h.engine
  engine := h

theorem step {op : SteppedOp sim} {x : Option (Exchange StepOp StepOp.Res)}
    (h : Implements a s φ) (henabled : enabled op s = true)
    (hstep : Step (φ t) ⟨op, (exec scanPage op s).1⟩ φ' x) :
    ∃ a', (LockedPod.system sim cfg scanPage).Commits x a a' ∧
      Implements a' (exec scanPage op s).2 (Function.update φ t φ') := by
  obtain rfl := h.locked
  generalize hφ : φ t = ψ at hstep
  cases op with
  | engine op =>
    cases hstep with
    | silent hstep =>
      obtain ⟨e, hcommits, hengine⟩ := h.engine.step henabled (hφ ▸ hstep)
      obtain rfl : e = s.locked.pod.server.engine := hcommits
      exact ⟨s.locked, rfl, withEngine hengine s⟩
    | @commit _ _ _ _ call reply o value ho hstep =>
      obtain ⟨e, hcommits, hengine⟩ := h.engine.step henabled (hφ ▸ hstep)
      have happly : call.apply s.locked.pod.server.engine = (reply, e) := hcommits.2
      have hexec := LockedPod.exec_of_engineCall ho scanPage s.locked
      rw [happly] at hexec
      exact ⟨_, ⟨LockedPod.enabled_of_engineCall ho s.locked, hexec⟩, withEngine hengine s⟩
  | step op =>
    cases hstep with
    | step r hop =>
      have hupdate : Function.update φ t .idle = φ := by
        rw [← hφ, Function.update_eq_self]
      rw [hupdate]
      refine ⟨(LockedPod.exec scanPage op s.locked).2, ⟨henabled, rfl⟩, rfl, ?_⟩
      have hsame := LockedPod.exec_engine hop scanPage s.locked
      show LockedEngine.Implements (LockedPod.exec scanPage op s.locked).2.pod.server.engine
        ⟨(LockedPod.exec scanPage op s.locked).2.pod.server.engine, s.writer, s.readers⟩ φ
      rw [hsame]
      exact h.engine

end Implements

theorem refines_lockedPod (cfg : ServiceConfig) (scanPage : ScanPolicy) :
    (LockedPod.system sim cfg scanPage).Refines (discipline sim) (system sim cfg scanPage)
      (fun _ _ => True) Implements where
  possible op s := by
    cases op with
    | engine op => exact EngineLock.refines_atomicEngine.possible op s.engine
    | step op => trivial
  code req := Mirrors.expand_left steps_mirror (LockedPod.code cfg req)
  step _ _ _ _ _ _ _ h henabled _ hstep := h.step henabled hstep

variable {cfg : ServiceConfig} {scanPage : ScanPolicy} {as : List (Action (PodRequest cfg.podIp))}
  {c : Config (SteppedPod sim) (PodRequest cfg.podIp) (SteppedOp sim) SteppedOp.Res PodResult}

theorem exists_lockedPod_run (maxRooms : ℕ) (redis : Store)
    (h : (system sim cfg scanPage).replay (fun _ _ => true)
      (Config.init (started (GameService.initState maxRooms redis))) as = some c) :
    ∃ bs d, Explains (LockedPod.system sim cfg scanPage) SteppedPod.locked
      (LockedPod.started (GameService.initState maxRooms redis)) as c bs d :=
  (refines_lockedPod cfg scanPage).exists_explains (fun _ _ _ _ _ _ _ _ _ => trivial)
    (fun _ _ _ h _ => h.locked.symm) (.init maxRooms redis) h

/-- Every interleaving of a pod's threads, with the steps of both locks, is one of a pod
whose methods are atomic but for the flag. -/
theorem explained_by_atomicPod (maxRooms : ℕ) (redis : Store)
    (h : (system sim cfg scanPage).replay (fun _ _ => true)
      (Config.init (started (GameService.initState maxRooms redis))) as = some c) :
    ∃ bs d, Explains (AtomicPod.system sim cfg scanPage) (LockedPod.pod ∘ SteppedPod.locked)
      (Pod.started (GameService.initState maxRooms redis)) as c bs d := by
  obtain ⟨bs, d, hlocked⟩ := exists_lockedPod_run maxRooms redis h
  obtain ⟨cs, e, hatomic⟩ := LockedPod.exists_atomicPod_run maxRooms redis hlocked.run
  exact ⟨cs, e, hlocked.trans hatomic⟩

end SteppedPod

namespace Sample

abbrev steppedProcess : System (SteppedPod simulator) (PodRequest podA.address)
    (SteppedOp simulator) SteppedOp.Res PodResult :=
  SteppedPod.system simulator ⟨text, "server-0", podA.address⟩ scanAll

/-- A destruction closes the room while its creation holds the lock of BattleEngine; then
it waits for that lock. Meanwhile the pod begins to shut down. -/
def destroyInsideSession : List (Action (PodRequest podA.address)) :=
  launch (.rpc (create "a")) ++ turns 0 17 ++ launch (.rpc (destroy "a")) ++ turns 1 6 ++
    launch .gracefulShutdown ++ turns 2 3 ++ turns 0 10 ++ turns 1 6

def roomCreated : Outcome := GameService.common .ok "" 0 "Room created successfully"
def roomDestroyed : Outcome := .returned ⟨.ok, ""⟩ (.destroyRoom 0 "Room destroyed successfully")

end Sample

open Sample in
theorem SteppedPod.destroyInsideSession_explained : ∃ c bs d,
    steppedProcess.replay (fun _ _ => true)
        (Config.init (started (GameService.initState 10 ∅))) destroyInsideSession = some c ∧
      Explains (AtomicPod.system simulator ⟨text, "server-0", podA.address⟩ scanAll)
        (LockedPod.pod ∘ SteppedPod.locked) (Pod.started (GameService.initState 10 ∅))
        destroyInsideSession c bs d ∧
      d.answer 0 = some (.outcome roomCreated) ∧
      d.answer 1 = some (.outcome roomDestroyed) := by
  have hruns : (steppedProcess.replay (fun _ _ => true)
      (Config.init (started (GameService.initState 10 ∅))) destroyInsideSession).any (fun c =>
        decide (c.answer 0 = some (.outcome roomCreated) ∧
          c.answer 1 = some (.outcome roomDestroyed))) = true := by
    decide +kernel
  obtain ⟨c, hc, hcheck⟩ := (Option.any_eq_true _ _).mp hruns
  obtain ⟨hcreated, hdestroyed⟩ := of_decide_eq_true hcheck
  obtain ⟨bs, d, hexplains⟩ := explained_by_atomicPod 10 ∅ hc
  exact ⟨c, bs, d, hc, hexplains, hexplains.answer_eq hcreated, hexplains.answer_eq hdestroyed⟩

end PokemonServer
