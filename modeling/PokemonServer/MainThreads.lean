import PokemonServer.Interleaving.Postconditions
import PokemonServer.PodAtomicity

/-!
# The threads of main

After Start has succeeded main waits for the gRPC server, while one thread polls the
SIGTERM flag and runs GracefulShutdown when it finds it set, and another ticks the rooms.
SIGTERM may come at any time, any number of times. main joins both threads, and the
destructor of GameServer stops once more what the handler has stopped.
-/

namespace PokemonServer
open Interleaving RedisClient

inductive MainThread where
  | sigterm
  | activity
  deriving DecidableEq

structure ServerProcess (sim : Simulator) where
  pod : Pod sim
  sigTermReceived : Bool
  thread : MainThread → ThreadState

inductive ProcessOp where
  | pod (op : PodOp)
  | setSigTermReceived
  | exchange
  | updateRoomActivity
  | wait
  | enter (m : MainThread)
  | leave (m : MainThread)
  | joinable (m : MainThread)
  | join (m : MainThread)

abbrev ProcessOp.Res : ProcessOp → Type
  | .pod op => op.Res
  | .exchange | .joinable _ => Bool
  | _ => Unit

inductive ProcessRequest (podIp : String) where
  | main
  | sigtermThread (turns : ℕ)
  | activityThread (turns : ℕ)
  | signal (number : ℤ)
  | rpc (request : Request)
  | heartbeatThread (turns : ℕ)
  | metricsThread (listening : Bool) (turns : List MetricsTurn)
  | foreign (command : ForeignCommand (heartbeatKey podIp))

inductive ProcessResult where
  | thread (result : PodResult)
  | exit (code : ℤ)

def SIGTERM : ℤ := 15

namespace ServerProcess

abbrev Routine := Prog ProcessOp ProcessOp.Res

def pods {α : Type} (p : Pod.Routine α) : Routine α := p.expand fun o => .op (ProcessOp.pod o)

def leaveWith (m : MainThread) : Routine ProcessResult := do
  let _ ← .op (ProcessOp.leave m)
  return .thread .returned

def signalHandlerFunction (signal : ℤ) : Routine ProcessResult :=
  if signal = SIGTERM then do
    let _ ← .op ProcessOp.setSigTermReceived
    return .thread .returned
  else
    return .thread .returned

/-- The handler is the one that main has registered. -/
def runHandlerIfReceived (podIp : String) : Routine Bool := do
  if !(← .op ProcessOp.exchange) then
    return false
  let _ ← pods (Pod.gracefulShutdown podIp)
  return true

def sigtermLoop (podIp : String) : ℕ → Routine ProcessResult
  | 0 => return .thread .cutOff
  | turns + 1 => do
    if ← .op (ProcessOp.pod .hasServer) then
      if ← runHandlerIfReceived podIp then
        leaveWith .sigterm
      else
        let _ ← .op (ProcessOp.pod .sleep)
        sigtermLoop podIp turns
    else
      leaveWith .sigterm

def sigtermThread (podIp : String) (turns : ℕ) : Routine ProcessResult := do
  let _ ← .op (ProcessOp.enter .sigterm)
  sigtermLoop podIp turns

def activityLoop : ℕ → Routine ProcessResult
  | 0 => return .thread .cutOff
  | turns + 1 => do
    if ← .op (ProcessOp.pod .hasServer) then
      let _ ← .op ProcessOp.updateRoomActivity
      let _ ← .op (ProcessOp.pod .sleep)
      activityLoop turns
    else
      leaveWith .activity

def activityThread (turns : ℕ) : Routine ProcessResult := do
  let _ ← .op (ProcessOp.enter .activity)
  activityLoop turns

def wait : Routine Unit := do
  if ← .op (ProcessOp.pod .hasServer) then
    let _ ← .op ProcessOp.wait
    return ()
  else
    return ()

def joinSigterm : Routine Unit := do
  if ← .op (ProcessOp.joinable .sigterm) then
    let _ ← .op (ProcessOp.join .sigterm)
    return ()
  else
    return ()

/-- main after Start, with the destructor of GameServer. -/
def main : Routine ProcessResult := do
  let _ ← wait
  let _ ← joinSigterm
  let _ ← .op (ProcessOp.join .activity)
  let _ ← pods Pod.stop
  return .exit 0

def podThread (cfg : ServiceConfig) (req : PodRequest cfg.podIp) : Routine ProcessResult := do
  return .thread (← pods (Pod.code cfg req))

def code (cfg : ServiceConfig) : ProcessRequest cfg.podIp → Routine ProcessResult
  | .main => main
  | .sigtermThread turns => sigtermThread cfg.podIp turns
  | .activityThread turns => activityThread turns
  | .signal number => signalHandlerFunction number
  | .rpc request => podThread cfg (.rpc request)
  | .heartbeatThread turns => podThread cfg (.heartbeatThread turns)
  | .metricsThread listening turns => podThread cfg (.metricsThread listening turns)
  | .foreign command => podThread cfg (.foreign command)

variable {sim : Simulator}

def setThread (p : ServerProcess sim) (m : MainThread) (state : ThreadState) : ServerProcess sim :=
  { p with thread := Function.update p.thread m state }

def exec (scanPage : ScanPolicy) : (op : ProcessOp) → ServerProcess sim → op.Res × ServerProcess sim
  | .pod op, p => ((Pod.exec scanPage op p.pod).1, { p with pod := (Pod.exec scanPage op p.pod).2 })
  | .setSigTermReceived, p => ((), { p with sigTermReceived := true })
  | .exchange, p => (p.sigTermReceived, { p with sigTermReceived := false })
  | .updateRoomActivity, p =>
    ((), { p with pod := p.pod.withRooms p.pod.server.rooms.updateRoomActivity })
  | .wait, p => ((), p)
  | .enter m, p => ((), p.setThread m .running)
  | .leave m, p => ((), p.setThread m .finished)
  | .joinable m, p => (p.thread m != .joined, p)
  | .join m, p => ((), p.setThread m .joined)

/-- The gRPC server's Wait returns when it has been shut down and no handler is running. -/
def enabled : ProcessOp → ServerProcess sim → Bool
  | .pod op, p => Pod.enabled op p.pod
  | .wait, p => !p.pod.accepting && p.pod.inFlight == 0
  | .enter m, p => p.thread m == .created
  | .join m, p => p.thread m == .finished
  | _, _ => true

def system (sim : Simulator) (cfg : ServiceConfig) (scanPage : ScanPolicy) :
    System (ServerProcess sim) (ProcessRequest cfg.podIp) ProcessOp ProcessOp.Res ProcessResult where
  code := code cfg
  exec := exec scanPage
  enabled := enabled

def started (server : ServerState sim Store) : ServerProcess sim where
  pod := Pod.started server
  sigTermReceived := false
  thread _ := .created

end ServerProcess

inductive Stopping where
  | serving
  | refusing
  | drained
  | gone
  deriving DecidableEq

def ProcessOp.quiet : ProcessOp → Bool
  | .pod .hasServer | .pod .shutdown | .pod .awaitHandlers | .pod .resetServer | .exchange
  | .enter .sigterm | .leave .sigterm | .joinable .sigterm | .join .sigterm => false
  | _ => true

def Stopping.next : Stopping → (op : PodOp) → op.Res → Option Stopping
  | .serving, .hasServer, present => some (if present then .serving else .gone)
  | .serving, .shutdown, _ => some .refusing
  | .refusing, .awaitHandlers, _ => some .drained
  | .drained, .resetServer, _ => some .gone
  | stage, op, _ => if (ProcessOp.pod op).quiet then some stage else none

inductive LifePhase where
  | other
  | asleep
  | watching
  | testing
  | missed
  | handling (stage : Stopping)
  | handled
  | main
  | destroying (stage : Stopping)

namespace LifePhase

def start {podIp : String} : ProcessRequest podIp → LifePhase
  | .main => .main
  | .sigtermThread _ => .asleep
  | _ => .other

def next : LifePhase → (op : ProcessOp) → op.Res → Option LifePhase
  | .handled, _, _ => none
  | .asleep, .enter .sigterm, _ => some .watching
  | .watching, .pod .hasServer, present => some (if present then .testing else .missed)
  | .testing, .exchange, received => some (if received then .handling .serving else .watching)
  | .missed, .leave .sigterm, _ => some .missed
  | .handling .gone, .leave .sigterm, _ => some .handled
  | .main, .joinable .sigterm, joinable => some (if joinable then .main else .destroying .serving)
  | .main, .join .sigterm, _ => some (.destroying .serving)
  | .main, .pod .hasServer, _ => some .main
  | .other, .pod .hasServer, _ => some .other
  | .handling stage, .pod op, res => (stage.next op res).map .handling
  | .destroying stage, .pod op, res => (stage.next op res).map .destroying
  | φ, op, _ => if op.quiet then some φ else none

/-- A thread of main returns cut off, or having handled the signal, or having found the
server gone; main returns when the server is gone. -/
def ReturnedIn : ProcessResult → LifePhase → Prop
  | .thread .cutOff, .watching => True
  | .thread .returned, .handled | .thread .returned, .missed => True
  | .exit code, .destroying .gone => code = 0
  | .thread _, .other => True
  | _, _ => False

end LifePhase

def lifeProtocol (podIp : String) :
    Protocol (ProcessRequest podIp) ProcessOp ProcessOp.Res LifePhase where
  start := LifePhase.start
  next _ := LifePhase.next
  final φ := ∃ result, φ.ReturnedIn result

abbrev PodOp.Quiet (op : PodOp) : Prop := (ProcessOp.pod op).quiet = true

namespace Pod

theorem handler_quiet {α : Type} (p : GameService.Handler α) : (handler p).Issues PodOp.Quiet := by
  refine Prog.Issues.expand_all (fun o => ?_) p
  exact ⟨rfl, fun _ => trivial⟩

theorem redis_quiet {α : Type} (p : Client α) : (redis p).Issues PodOp.Quiet := by
  refine Prog.Issues.expand_all (fun o => ?_) p
  exact ⟨rfl, fun _ => trivial⟩

theorem drain_quiet : drain.Issues PodOp.Quiet := by
  have hwait : ∀ turns, (waitForRooms turns).Issues PodOp.Quiet := by
    intro turns
    induction turns with
    | zero => trivial
    | succ turns ih => exact ⟨rfl, fun _ => ⟨rfl, fun _ => ih⟩⟩
  have hclose : ∀ roomIds, (closeRooms roomIds).Issues PodOp.Quiet := by
    intro roomIds
    induction roomIds with
    | nil => trivial
    | cons roomId roomIds ih => exact ⟨rfl, fun _ => ih⟩
  exact ⟨rfl, fun _ => (hwait 5).bind fun _ => ⟨rfl, hclose⟩⟩

theorem stopWorker_quiet (w : Worker) : (stopWorker w).Issues PodOp.Quiet := by
  refine ⟨rfl, fun _ => ⟨rfl, fun joinable => ?_⟩⟩
  cases joinable with
  | false => trivial
  | true => exact ⟨rfl, fun _ => trivial⟩

theorem leave_quiet (w : Worker) :
    (Prog.op (PodOp.leave w) >>= fun _ => .ret .returned : Routine PodResult).Issues PodOp.Quiet :=
  ⟨rfl, fun _ => trivial⟩

theorem heartbeatLoop_quiet (podIp : String) (turns : ℕ) :
    (heartbeatLoop podIp turns).Issues PodOp.Quiet := by
  induction turns with
  | zero => trivial
  | succ turns ih =>
    refine ⟨rfl, fun running => ?_⟩
    cases running with
    | false => exact leave_quiet .heartbeat
    | true => exact ⟨rfl, fun _ => (redis_quiet _).bind fun _ => ih⟩

theorem metricsLoop_quiet (cfg : ServiceConfig) (turns : List MetricsTurn) :
    (metricsLoop cfg turns).Issues PodOp.Quiet := by
  induction turns with
  | nil => trivial
  | cons turn turns ih =>
    refine ⟨rfl, fun running => ?_⟩
    cases running with
    | false => exact leave_quiet .metrics
    | true =>
    refine ⟨rfl, fun _ => ⟨rfl, fun running => ?_⟩⟩
    cases running with
    | false => exact leave_quiet .metrics
    | true =>
    cases turn with
    | nothing | otherRequest => exact ih
    | scrape fuel =>
      refine (handler_quiet _).bind fun snapshot => ?_
      cases snapshot with
      | none => trivial
      | some _ => exact ih

theorem code_quiet {cfg : ServiceConfig} {req : PodRequest cfg.podIp}
    (hreq : req ≠ .gracefulShutdown) : (code cfg req).Issues PodOp.Quiet := by
  cases req with
  | rpc request => exact ⟨rfl, fun _ => (handler_quiet _).bind fun _ => ⟨rfl, fun _ => trivial⟩⟩
  | heartbeatThread turns => exact ⟨rfl, fun _ => heartbeatLoop_quiet cfg.podIp turns⟩
  | metricsThread listening turns =>
    refine ⟨rfl, fun _ => ?_⟩
    cases listening with
    | false => exact leave_quiet .metrics
    | true => exact metricsLoop_quiet cfg turns
  | gracefulShutdown => exact absurd rfl hreq
  | foreign command => exact (redis_quiet _).bind fun _ => trivial

end Pod

theorem Stopping.next_of_quiet {op : PodOp} (hop : op.Quiet) (stage : Stopping) (res : op.Res) :
    stage.next op res = some stage := by
  cases op with
  | hasServer | shutdown | awaitHandlers | resetServer => cases hop
  | _ => cases stage <;> rfl

namespace LifePhase

theorem next_of_quiet {φ : LifePhase} (hφ : φ ≠ .handled) {op : ProcessOp} (hop : op.quiet = true)
    (res : op.Res) : φ.next op res = some φ := by
  cases op with
  | pod op =>
    cases φ with
    | handled => exact absurd rfl hφ
    | handling stage | destroying stage => simp [next, Stopping.next_of_quiet hop]
    | _ => cases op <;> first | rfl | cases hop
  | enter m | leave m | joinable m | join m =>
    cases m with
    | sigterm => cases hop
    | activity =>
      cases φ with
      | handled => exact absurd rfl hφ
      | handling stage => cases stage <;> rfl
      | _ => rfl
  | exchange => cases hop
  | _ =>
    cases φ with
    | handled => exact absurd rfl hφ
    | handling stage => cases stage <;> rfl
    | _ => rfl

end LifePhase

namespace ServerProcess
open LifePhase

def Anything : (op : ProcessOp) → op.Res → Prop := fun _ _ => True

variable {podIp : String} {req : ProcessRequest podIp} {φ : LifePhase}

abbrev Ends {α : Type} (req : ProcessRequest podIp) (Q : α → LifePhase → Prop) (φ : LifePhase)
    (p : Routine α) : Prop := (lifeProtocol podIp).EndsIn Anything req Q φ p

theorem quiet_ends {α : Type} {p : Routine α} (hp : p.Issues fun op => op.quiet = true)
    (hφ : φ ≠ .handled) : Ends req (fun _ ψ => ψ = φ) φ p := by
  induction p with
  | ret a => exact rfl
  | call op next ih => exact fun res _ => ⟨φ, next_of_quiet hφ hp.1 res, ih res (hp.2 res)⟩

theorem pods_quiet {α : Type} {p : Pod.Routine α} (hp : p.Issues PodOp.Quiet) :
    (pods p).Issues fun op => op.quiet = true :=
  .expand (f := fun o => .op (ProcessOp.pod o)) (fun _ ho => ⟨ho, fun _ => trivial⟩) hp

theorem stop_ends {phase : Stopping → LifePhase} (hne : ∀ stage, phase stage ≠ .handled)
    (hnext : ∀ stage (op : PodOp) (res : op.Res),
      (phase stage).next (.pod op) res = (stage.next op res).map phase) :
    Ends req (fun _ ψ => ψ = phase .gone) (phase .serving) (pods Pod.stop) := by
  rw [Pod.stop, pods, Prog.expand_bind]
  refine (quiet_ends (pods_quiet (Pod.stopWorker_quiet _)) (hne _)).bind ?_
  rintro _ ψ rfl
  rw [Prog.expand_bind]
  refine (quiet_ends (pods_quiet (Pod.stopWorker_quiet _)) (hne _)).bind ?_
  rintro _ ψ rfl
  refine fun present _ => ?_
  cases present with
  | false => exact ⟨phase .gone, hnext .serving .hasServer false, rfl⟩
  | true =>
    refine ⟨phase .serving, hnext .serving .hasServer true, fun _ _ => ?_⟩
    refine ⟨phase .refusing, hnext .serving .shutdown (), fun _ _ => ?_⟩
    refine ⟨phase .drained, hnext .refusing .awaitHandlers (), fun _ _ => ?_⟩
    exact ⟨phase .gone, hnext .drained .resetServer (), rfl⟩

theorem handling_next (stage : Stopping) (op : PodOp) (res : op.Res) :
    (LifePhase.handling stage).next (.pod op) res = (stage.next op res).map .handling := by
  cases stage <;> rfl

theorem destroying_next (stage : Stopping) (op : PodOp) (res : op.Res) :
    (LifePhase.destroying stage).next (.pod op) res = (stage.next op res).map .destroying := by
  cases stage <;> rfl

theorem gracefulShutdown_ends (address : String) :
    Ends req (fun _ ψ => ψ = .handling .gone) (.handling .serving)
      (pods (Pod.gracefulShutdown address)) := by
  rw [Pod.gracefulShutdown, pods, Prog.expand_bind]
  refine (quiet_ends (pods_quiet Pod.drain_quiet) LifePhase.noConfusion).bind ?_
  rintro _ ψ rfl
  rw [Prog.expand_bind]
  refine (quiet_ends (pods_quiet (Pod.redis_quiet _)) LifePhase.noConfusion).bind ?_
  rintro _ ψ rfl
  rw [Prog.expand_bind]
  exact (stop_ends (fun _ => LifePhase.noConfusion) handling_next).bind fun _ _ h => h

theorem runHandlerIfReceived_ends (address : String) :
    Ends req (fun ran ψ => ψ = if ran then .handling .gone else .watching) .testing
      (runHandlerIfReceived address) := by
  refine fun received _ => ?_
  cases received with
  | false => exact ⟨.watching, rfl, rfl⟩
  | true =>
    refine ⟨.handling .serving, rfl, (gracefulShutdown_ends address).bind ?_⟩
    rintro _ ψ rfl
    exact rfl

theorem sigtermLoop_ends (address : String) (turns : ℕ) :
    Ends req ReturnedIn .watching (sigtermLoop address turns) := by
  induction turns with
  | zero => trivial
  | succ turns ih =>
    refine fun present _ => ?_
    cases present with
    | false => exact ⟨.missed, rfl, fun _ _ => ⟨.missed, rfl, trivial⟩⟩
    | true =>
      refine ⟨.testing, rfl, (runHandlerIfReceived_ends address).bind ?_⟩
      rintro ran ψ rfl
      cases ran with
      | false => exact fun _ _ => ⟨.watching, rfl, ih⟩
      | true => exact fun _ _ => ⟨.handled, rfl, trivial⟩

theorem activityLoop_ends (turns : ℕ) : Ends req ReturnedIn .other (activityLoop turns) := by
  induction turns with
  | zero => trivial
  | succ turns ih =>
    refine fun present _ => ⟨.other, rfl, ?_⟩
    cases present with
    | false => exact fun _ _ => ⟨.other, rfl, trivial⟩
    | true => exact fun _ _ => ⟨.other, rfl, fun _ _ => ⟨.other, rfl, ih⟩⟩

theorem main_ends :
    Ends req (fun result ψ => result = .exit 0 ∧ ψ = .destroying .gone) .main main := by
  have hwait : Ends req (fun _ ψ => ψ = .main) .main wait := by
    refine fun present _ => ⟨.main, rfl, ?_⟩
    cases present with
    | false => exact rfl
    | true => exact fun _ _ => ⟨.main, rfl, rfl⟩
  have hjoin : Ends req (fun _ ψ => ψ = .destroying .serving) .main joinSigterm := by
    refine fun joinable _ => ?_
    cases joinable with
    | false => exact ⟨.destroying .serving, rfl, rfl⟩
    | true => exact ⟨.main, rfl, fun _ _ => ⟨.destroying .serving, rfl, rfl⟩⟩
  refine hwait.bind ?_
  rintro _ ψ rfl
  refine hjoin.bind ?_
  rintro _ ψ rfl
  refine fun _ _ => ⟨.destroying .serving, rfl, ?_⟩
  refine (stop_ends (fun _ => LifePhase.noConfusion) destroying_next).bind ?_
  rintro _ ψ rfl
  exact ⟨rfl, rfl⟩

theorem podThread_ends {cfg : ServiceConfig} {podReq : PodRequest cfg.podIp}
    (hreq : podReq ≠ .gracefulShutdown) : Ends req ReturnedIn .other (podThread cfg podReq) := by
  refine (quiet_ends (pods_quiet (Pod.code_quiet hreq)) LifePhase.noConfusion).bind ?_
  rintro result ψ rfl
  cases result <;> trivial

theorem code_ends (cfg : ServiceConfig) (req : ProcessRequest cfg.podIp) :
    Ends req ReturnedIn (start req) (code cfg req) := by
  cases req with
  | main =>
    refine main_ends.mono ?_
    rintro _ _ ⟨rfl, rfl⟩
    exact rfl
  | sigtermThread turns => exact fun _ _ => ⟨.watching, rfl, sigtermLoop_ends cfg.podIp turns⟩
  | activityThread turns => exact fun _ _ => ⟨.other, rfl, activityLoop_ends turns⟩
  | signal number =>
    show Ends _ ReturnedIn .other (signalHandlerFunction number)
    unfold signalHandlerFunction
    split
    · exact fun _ _ => ⟨.other, rfl, trivial⟩
    · trivial
  | rpc _ | heartbeatThread _ | metricsThread _ _ | foreign _ =>
    exact podThread_ends fun h => by cases h

end ServerProcess

inductive StopStep : Stopping → (op : PodOp) → op.Res → Stopping → Prop
  | absent : StopStep .serving .hasServer false .gone
  | shutdown : StopStep .serving .shutdown () .refusing
  | awaitHandlers : StopStep .refusing .awaitHandlers () .drained
  | resetServer : StopStep .drained .resetServer () .gone

inductive LifeStep : LifePhase → (op : ProcessOp) → op.Res → LifePhase → Prop
  | quiet (φ : LifePhase) {op : ProcessOp} (res : op.Res) : op.quiet = true → LifeStep φ op res φ
  | reads (φ : LifePhase) (present : Bool) : LifeStep φ (.pod .hasServer) present φ
  | enter : LifeStep .asleep (.enter .sigterm) () .watching
  | present : LifeStep .watching (.pod .hasServer) true .testing
  | missed : LifeStep .watching (.pod .hasServer) false .missed
  | received : LifeStep .testing .exchange true (.handling .serving)
  | notReceived : LifeStep .testing .exchange false .watching
  | leaveMissed : LifeStep .missed (.leave .sigterm) () .missed
  | leave : LifeStep (.handling .gone) (.leave .sigterm) () .handled
  | joinable : LifeStep .main (.joinable .sigterm) true .main
  | joined : LifeStep .main (.joinable .sigterm) false (.destroying .serving)
  | join : LifeStep .main (.join .sigterm) () (.destroying .serving)
  | handling {stage stage' : Stopping} {op : PodOp} {res : op.Res} : StopStep stage op res stage' →
      LifeStep (.handling stage) (.pod op) res (.handling stage')
  | destroying {stage stage' : Stopping} {op : PodOp} {res : op.Res} : StopStep stage op res stage' →
      LifeStep (.destroying stage) (.pod op) res (.destroying stage')

theorem Stopping.step_of_next {stage stage' : Stopping} {op : PodOp} {res : op.Res}
    (hop : ¬ op.Quiet) (h : stage.next op res = some stage') :
    (op = .hasServer ∧ stage' = stage) ∨ StopStep stage op res stage' := by
  cases op with
  | hasServer =>
    cases stage <;> cases h
    cases res with
    | false => exact Or.inr .absent
    | true => exact Or.inl ⟨rfl, rfl⟩
  | shutdown =>
    cases stage <;> cases h
    exact Or.inr .shutdown
  | awaitHandlers =>
    cases stage <;> cases h
    exact Or.inr .awaitHandlers
  | resetServer =>
    cases stage <;> cases h
    exact Or.inr .resetServer
  | _ => exact absurd rfl hop

namespace LifePhase

theorem step_of_next_pod {φ φ' : LifePhase} {op : PodOp} {res : op.Res} (hop : ¬ op.Quiet)
    (h : φ.next (.pod op) res = some φ') : LifeStep φ (.pod op) res φ' := by
  cases φ with
  | handling stage =>
    rw [ServerProcess.handling_next] at h
    obtain ⟨stage', hstage, rfl⟩ := Option.map_eq_some_iff.mp h
    rcases Stopping.step_of_next hop hstage with ⟨rfl, rfl⟩ | hstep
    · exact .reads _ res
    · exact .handling hstep
  | destroying stage =>
    rw [ServerProcess.destroying_next] at h
    obtain ⟨stage', hstage, rfl⟩ := Option.map_eq_some_iff.mp h
    rcases Stopping.step_of_next hop hstage with ⟨rfl, rfl⟩ | hstep
    · exact .reads _ res
    · exact .destroying hstep
  | watching =>
    cases op with
    | hasServer =>
      cases h
      cases res with
      | false => exact .missed
      | true => exact .present
    | shutdown | awaitHandlers | resetServer => cases h
    | _ => exact absurd rfl hop
  | other | main =>
    cases op with
    | hasServer =>
      cases h
      exact .reads _ res
    | shutdown | awaitHandlers | resetServer => cases h
    | _ => exact absurd rfl hop
  | _ =>
    cases op with
    | hasServer | shutdown | awaitHandlers | resetServer => cases h
    | _ => exact absurd rfl hop

theorem step_of_next_thread {φ φ' : LifePhase} {op : ProcessOp} {res : op.Res}
    (hop : ¬ op.quiet = true) (hpod : ∀ o, op ≠ .pod o) (h : φ.next op res = some φ') :
    LifeStep φ op res φ' := by
  cases op with
  | pod o => exact absurd rfl (hpod o)
  | exchange =>
    cases φ with
    | testing =>
      cases h
      cases res with
      | false => exact .notReceived
      | true => exact .received
    | handling stage => cases stage <;> cases h
    | _ => cases h
  | enter m =>
    cases m with
    | activity => exact absurd rfl hop
    | sigterm =>
      cases φ with
      | asleep =>
        cases h
        exact .enter
      | handling stage => cases stage <;> cases h
      | _ => cases h
  | leave m =>
    cases m with
    | activity => exact absurd rfl hop
    | sigterm =>
      cases φ with
      | missed =>
        cases h
        exact .leaveMissed
      | handling stage =>
        cases stage <;> cases h
        exact .leave
      | _ => cases h
  | joinable m =>
    cases m with
    | activity => exact absurd rfl hop
    | sigterm =>
      cases φ with
      | main =>
        cases h
        cases res with
        | false => exact .joined
        | true => exact .joinable
      | handling stage => cases stage <;> cases h
      | _ => cases h
  | join m =>
    cases m with
    | activity => exact absurd rfl hop
    | sigterm =>
      cases φ with
      | main =>
        cases h
        exact .join
      | handling stage => cases stage <;> cases h
      | _ => cases h
  | _ => exact absurd rfl hop

theorem step_of_next {φ φ' : LifePhase} {op : ProcessOp} {res : op.Res}
    (h : φ.next op res = some φ') : LifeStep φ op res φ' := by
  by_cases hop : op.quiet = true
  · by_cases hφ : φ = .handled
    · subst hφ
      cases h
    · rw [next_of_quiet hφ hop] at h
      exact Option.some.inj h ▸ .quiet φ res hop
  · cases op with
    | pod op => exact step_of_next_pod hop h
    | _ => exact step_of_next_thread hop (fun _ => ProcessOp.noConfusion) h

end LifePhase

section life
open Protocol
variable {sim : Simulator} {podIp : String} {phases : ℕ → Option (ProcessRequest podIp × LifePhase)}
  {t : ℕ} {req : ProcessRequest podIp} {φ φ' : LifePhase}

def Pod.Closed (p : Pod sim) : Prop := p.accepting = false ∧ p.inFlight = 0

structure Pod.StopsIn (p p' : Pod sim) : Prop where
  accepting : p.accepting = false → p'.accepting = false
  closed : p.Closed → p'.Closed
  gone : p.hasServer = false → p'.hasServer = false

theorem Pod.stopsIn_exec (scanPage : ScanPolicy) {op : PodOp} {p : Pod sim}
    (henabled : enabled op p = true) : p.StopsIn (exec scanPage op p).2 := by
  cases op with
  | accept =>
    have haccepting : p.accepting = true := henabled
    refine ⟨id, fun hclosed => ?_, id⟩
    rw [hclosed.1] at haccepting
    cases haccepting
  | respond =>
    refine ⟨id, fun hclosed => ⟨hclosed.1, ?_⟩, id⟩
    show p.inFlight - 1 = 0
    rw [hclosed.2]
  | shutdown => exact ⟨fun _ => rfl, fun hclosed => ⟨rfl, hclosed.2⟩, id⟩
  | resetServer => exact ⟨id, id, fun _ => rfl⟩
  | _ => exact ⟨id, id, id⟩

def Stopping.Knows (p : Pod sim) : Stopping → Prop
  | .serving => True
  | .refusing => p.accepting = false
  | .drained => p.Closed
  | .gone => p.hasServer = false

theorem Stopping.Knows.later {p p' : Pod sim} {stage : Stopping} (h : stage.Knows p)
    (hstops : p.StopsIn p') : stage.Knows p' := by
  cases stage with
  | serving => trivial
  | refusing => exact hstops.accepting h
  | drained => exact hstops.closed h
  | gone => exact hstops.gone h

theorem StopStep.knows {scanPage : ScanPolicy} {p : Pod sim} {op : PodOp} {stage stage' : Stopping}
    (hstep : StopStep stage op (Pod.exec scanPage op p).1 stage') (h : stage.Knows p)
    (henabled : Pod.enabled op p = true) : stage'.Knows (Pod.exec scanPage op p).2 := by
  generalize hres : (Pod.exec scanPage op p).1 = res at hstep
  cases hstep with
  | absent => exact hres
  | shutdown => rfl
  | awaitHandlers => exact ⟨h, beq_iff_eq.mp henabled⟩
  | resetServer => rfl

namespace LifePhase

def Knows (p : ServerProcess sim) : LifePhase → Prop
  | .watching | .testing => p.pod.hasServer = true
  | .missed => False
  | .handling stage => stage.Knows p.pod
  | .destroying stage => stage.Knows p.pod ∧ p.thread .sigterm = .joined
  | _ => True

theorem Knows.later {p p' : ServerProcess sim} (h : φ.Knows p) (hstops : p.pod.StopsIn p'.pod)
    (hserver : φ = .watching ∨ φ = .testing → p.pod.hasServer = true → p'.pod.hasServer = true)
    (hjoined : p.thread .sigterm = .joined → p'.thread .sigterm = .joined) : φ.Knows p' := by
  cases φ with
  | watching => exact hserver (Or.inl rfl) h
  | testing => exact hserver (Or.inr rfl) h
  | missed => exact h
  | handling stage => exact h.later hstops
  | destroying stage => exact ⟨h.1.later hstops, hjoined h.2⟩
  | _ => trivial

def AtWork : LifePhase → Prop
  | .watching | .testing | .missed | .handling _ => True
  | _ => False

def Entered (φ : LifePhase) : Prop := φ.AtWork ∨ φ = .handled

def Took : LifePhase → Prop
  | .handling _ | .handled => True
  | _ => False

theorem Took.entered (h : φ.Took) : φ.Entered := by
  cases φ with
  | handling stage => exact Or.inl trivial
  | handled => exact Or.inr rfl
  | _ => exact h.elim

end LifePhase

open LifePhase

inductive SigtermKnown (phases : ℕ → Option (ProcessRequest podIp × LifePhase)) :
    ThreadState → Prop
  | created : (threads phases fun _ φ => φ.Entered) = ∅ → SigtermKnown phases .created
  | running {t : ℕ} {req : ProcessRequest podIp} {φ : LifePhase} : phases t = some (req, φ) →
      φ.AtWork → (threads phases fun _ φ => φ.Entered) = {t} → SigtermKnown phases .running
  | left {t : ℕ} {req : ProcessRequest podIp} {state : ThreadState} :
      state = .finished ∨ state = .joined → phases t = some (req, .handled) →
      (threads phases fun _ φ => φ.Entered) = {t} → SigtermKnown phases state

namespace SigtermKnown
variable {state : ThreadState}

theorem keep (h : SigtermKnown phases state) (ht : phases t = some (req, φ))
    (hwork : φ.AtWork → φ'.AtWork) (hentered : φ'.Entered ↔ φ.Entered)
    (hhandled : φ = .handled → φ' = .handled) :
    SigtermKnown (Function.update phases t (some (req, φ'))) state := by
  have hsame := threads_update_iff (p := fun _ φ => φ.Entered) ht hentered
  cases h with
  | created hnone => exact .created (hsame.trans hnone)
  | @running u req' ψ hu hψ honly =>
    by_cases hut : u = t
    · subst hut
      rw [ht] at hu
      cases hu
      exact .running (Function.update_self ..) (hwork hψ) (hsame.trans honly)
    · exact .running ((Function.update_of_ne hut ..).trans hu) hψ (hsame.trans honly)
  | @left u req' _ hstate hu honly =>
    by_cases hut : u = t
    · subst hut
      rw [ht] at hu
      cases hu
      obtain rfl := hhandled rfl
      exact .left hstate (Function.update_self ..) (hsame.trans honly)
    · exact .left hstate ((Function.update_of_ne hut ..).trans hu) (hsame.trans honly)

theorem start (h : SigtermKnown phases state) (hfresh : phases t = none)
    (req : ProcessRequest podIp) :
    SigtermKnown (Function.update phases t (some (req, LifePhase.start req))) state := by
  have hsame : threads (Function.update phases t (some (req, LifePhase.start req)))
      (fun _ φ => φ.Entered) = threads phases fun _ φ => φ.Entered :=
    threads_start hfresh (by cases req <;> rintro (h | h) <;> cases h)
  have hne : ∀ {u : ℕ} {req' : ProcessRequest podIp} {ψ : LifePhase},
      phases u = some (req', ψ) → u ≠ t := by
    rintro u req' ψ hu rfl
    rw [hfresh] at hu
    cases hu
  cases h with
  | created hnone => exact .created (hsame.trans hnone)
  | running hu hψ honly =>
    exact .running ((Function.update_of_ne (hne hu) ..).trans hu) hψ (hsame.trans honly)
  | left hstate hu honly =>
    exact .left hstate ((Function.update_of_ne (hne hu) ..).trans hu) (hsame.trans honly)

theorem enter (h : SigtermKnown phases .created) (hφ : φ.AtWork) :
    SigtermKnown (Function.update phases t (some (req, φ))) .running := by
  cases h with
  | created hnone =>
    refine .running (Function.update_self ..) hφ ?_
    rw [threads_update_pos (p := fun _ φ => LifePhase.Entered φ) (Or.inl hφ), hnone,
      insert_empty_eq]
  | left hstate => rcases hstate with h | h <;> cases h

theorem atWork (h : SigtermKnown phases state) (ht : phases t = some (req, φ)) (hφ : φ.AtWork) :
    state = .running ∧ (threads phases fun _ φ => φ.Entered) = {t} := by
  have hmem : t ∈ threads phases fun _ φ => φ.Entered := ⟨req, φ, ht, Or.inl hφ⟩
  cases h with
  | created hnone =>
    rw [hnone] at hmem
    exact hmem.elim
  | running hu hψ honly =>
    rw [honly] at hmem
    obtain rfl := hmem
    exact ⟨rfl, honly⟩
  | left hstate hu honly =>
    rw [honly] at hmem
    obtain rfl := hmem
    rw [ht] at hu
    cases hu
    exact hφ.elim

theorem leave (h : SigtermKnown phases state) (ht : phases t = some (req, φ)) (hφ : φ.AtWork) :
    SigtermKnown (Function.update phases t (some (req, .handled))) .finished := by
  refine .left (Or.inl rfl) (Function.update_self ..) ?_
  rw [threads_update_iff (p := fun _ φ => LifePhase.Entered φ) ht
    (iff_of_true (Or.inr rfl) (Or.inl hφ))]
  exact (h.atWork ht hφ).2

theorem join (h : SigtermKnown phases .finished) (ht : phases t = some (req, φ))
    (hφ : ¬ φ.Entered) (hφ' : ¬ φ'.Entered) :
    SigtermKnown (Function.update phases t (some (req, φ'))) .joined := by
  have hjoined : SigtermKnown phases .joined := by
    cases h with
    | left _ hu honly => exact .left (Or.inr rfl) hu honly
  exact hjoined.keep ht (fun h => (hφ (Or.inl h)).elim) (iff_of_false hφ' hφ)
    fun h => (hφ (Or.inr h)).elim

theorem handled (h : SigtermKnown phases .joined) :
    ∃ u req', phases u = some (req', LifePhase.handled) := by
  cases h with
  | left _ hu _ => exact ⟨_, _, hu⟩

theorem took_subset (h : SigtermKnown phases state) :
    ∃ u, (threads phases fun _ φ => φ.Took) ⊆ {u} := by
  have hentered : (threads phases fun _ φ => φ.Took) ⊆ threads phases fun _ φ => φ.Entered := by
    rintro v ⟨req, ψ, hψ, htook⟩
    exact ⟨req, ψ, hψ, htook.entered⟩
  cases h with
  | created hnone => exact ⟨0, hentered.trans (hnone ▸ Set.empty_subset _)⟩
  | @running u _ _ _ _ honly => exact ⟨u, hentered.trans honly.subset⟩
  | @left u _ _ _ _ honly => exact ⟨u, hentered.trans honly.subset⟩

end SigtermKnown

abbrev ProcessLog := List (Event ProcessOp ProcessOp.Res)

def takesSignal : Event ProcessOp ProcessOp.Res → Bool
  | ⟨_, .exchange, received⟩ => received
  | _ => false

def Delivered (log : ProcessLog) : Prop := ∃ t, ⟨t, .setSigTermReceived, ()⟩ ∈ log

def LifePhase.OwnedBy (req : ProcessRequest podIp) (φ : LifePhase) : Prop :=
  φ = .asleep ∨ φ.Entered → ∃ turns, req = .sigtermThread turns

structure Living (p : ServerProcess sim) (phases : ℕ → Option (ProcessRequest podIp × LifePhase))
    (log : ProcessLog) : Prop where
  owned : ∀ t req φ, phases t = some (req, φ) → φ.OwnedBy req
  sigterm : SigtermKnown phases (p.thread .sigterm)
  knows : ∀ t req φ, phases t = some (req, φ) → φ.Knows p
  closed : p.pod.hasServer = false → p.pod.Closed
  unentered : p.thread .sigterm = .created → p.pod.hasServer = true
  taken : log.countP takesSignal = (threads phases fun _ φ => φ.Took).ncard
  delivered : p.sigTermReceived = true ∨ 0 < log.countP takesSignal → Delivered log

namespace Living
variable {p p' : ServerProcess sim} {log : ProcessLog} {e : Event ProcessOp ProcessOp.Res}

theorem init (server : ServerState sim Store) :
    Living (ServerProcess.started server)
      (fun _ => none : ℕ → Option (ProcessRequest podIp × LifePhase)) [] where
  owned t req φ h := by cases h
  sigterm := .created threads_none
  knows t req φ h := by cases h
  closed h := by cases h
  unentered _ := rfl
  taken := by rw [threads_none, Set.ncard_empty, List.countP_nil]
  delivered h := by rcases h with h | h <;> cases h

theorem start (h : Living p phases log) (hfresh : phases t = none) (req : ProcessRequest podIp) :
    Living p (Function.update phases t (some (req, LifePhase.start req))) log where
  owned := by
    refine forall_update (K := fun req φ => φ.OwnedBy req) ?_ fun u req' ψ _ => h.owned u req' ψ
    cases req with
    | sigtermThread turns => exact fun _ => ⟨turns, rfl⟩
    | _ => rintro (h | h | h) <;> cases h
  sigterm := h.sigterm.start hfresh req
  knows := forall_update (K := fun _ φ => LifePhase.Knows p φ) (by cases req <;> trivial)
    fun u req' ψ _ => h.knows u req' ψ
  closed := h.closed
  unentered := h.unentered
  taken := by
    have hsame : threads (Function.update phases t (some (req, LifePhase.start req)))
        (fun _ φ => φ.Took) = threads phases fun _ φ => φ.Took :=
      threads_start hfresh (by cases req <;> exact id)
    rw [hsame]
    exact h.taken
  delivered := h.delivered

theorem owned_update (h : Living p phases log) (ht : phases t = some (req, φ))
    (hphase : φ' = .asleep ∨ φ'.Entered → φ = .asleep ∨ φ.Entered) :
    ∀ u req' ψ, Function.update phases t (some (req, φ')) u = some (req', ψ) → ψ.OwnedBy req' :=
  forall_update (K := fun req φ => φ.OwnedBy req) (fun hφ' => h.owned t req φ ht (hphase hφ'))
    fun u req' ψ _ => h.owned u req' ψ

theorem knows_update (h : Living p phases log) (hstops : p.pod.StopsIn p'.pod)
    (hwatched : ∀ u req' ψ, u ≠ t → phases u = some (req', ψ) →
      ψ = .watching ∨ ψ = .testing → p.pod.hasServer = true → p'.pod.hasServer = true)
    (hjoined : p.thread .sigterm = .joined → p'.thread .sigterm = .joined) (hφ : φ'.Knows p') :
    ∀ u req' ψ, Function.update phases t (some (req, φ')) u = some (req', ψ) → ψ.Knows p' :=
  forall_update (K := fun _ φ => LifePhase.Knows p' φ) hφ fun u req' ψ hut hu =>
    (h.knows u req' ψ hu).later hstops (hwatched u req' ψ hut hu) hjoined

theorem taken_update (h : Living p phases log) (ht : phases t = some (req, φ))
    (he : takesSignal e = false) (htook : φ'.Took ↔ φ.Took) :
    (e :: log).countP takesSignal =
      (threads (Function.update phases t (some (req, φ'))) fun _ φ => φ.Took).ncard := by
  rw [threads_update_iff (p := fun _ φ => LifePhase.Took φ) ht htook, ← h.taken,
    List.countP_cons_of_neg (by rw [he]; exact Bool.false_ne_true)]

theorem delivered_update (h : Living p phases log) (he : takesSignal e = false)
    (hflag : p'.sigTermReceived = true → p.sigTermReceived = true) :
    p'.sigTermReceived = true ∨ 0 < (e :: log).countP takesSignal → Delivered (e :: log) := by
  rw [List.countP_cons_of_neg (by rw [he]; exact Bool.false_ne_true)]
  intro hsignal
  obtain ⟨u, hu⟩ := h.delivered (hsignal.imp_left hflag)
  exact ⟨u, List.mem_cons_of_mem _ hu⟩

theorem calm (h : Living p phases log) (ht : phases t = some (req, φ))
    (he : takesSignal e = false) (hstops : p.pod.StopsIn p'.pod)
    (hserver : p'.pod.hasServer = p.pod.hasServer)
    (hthread : p'.thread .sigterm = p.thread .sigterm)
    (hflag : p'.sigTermReceived = true → p.sigTermReceived = true)
    (hwork : φ'.AtWork ↔ φ.AtWork) (hasleep : φ' = .asleep → φ = .asleep)
    (hhandled : φ' = .handled ↔ φ = .handled) (htook : φ'.Took ↔ φ.Took) (hφ : φ'.Knows p') :
    Living p' (Function.update phases t (some (req, φ'))) (e :: log) where
  owned := h.owned_update ht (Or.imp hasleep (Or.imp hwork.mp hhandled.mp))
  sigterm := hthread ▸ h.sigterm.keep ht hwork.mpr (or_congr hwork hhandled) hhandled.mpr
  knows := h.knows_update hstops (fun _ _ _ _ _ _ h => hserver.trans h) hthread.trans hφ
  closed hgone := hstops.closed (h.closed (hserver.symm.trans hgone))
  unentered hcreated := hserver.trans (h.unentered (hthread.symm.trans hcreated))
  taken := h.taken_update ht he htook
  delivered := h.delivered_update he hflag

theorem deliver (h : Living p phases log) (ht : phases t = some (req, φ)) :
    Living { p with sigTermReceived := true } (Function.update phases t (some (req, φ)))
      (⟨t, .setSigTermReceived, ()⟩ :: log) where
  owned := h.owned_update ht id
  sigterm := h.sigterm.keep ht id Iff.rfl id
  knows := h.knows_update ⟨id, id, id⟩ (fun _ _ _ _ _ _ h => h) id
    ((h.knows t req φ ht).later ⟨id, id, id⟩ (fun _ h => h) id)
  closed := h.closed
  unentered := h.unentered
  taken := h.taken_update ht rfl Iff.rfl
  delivered _ := ⟨t, List.mem_cons_self⟩

end Living

namespace ServerProcess

theorem exec_of_quiet {op : ProcessOp} (hop : op.quiet = true) (scanPage : ScanPolicy)
    {p : ServerProcess sim} (henabled : enabled op p = true) :
    p.pod.StopsIn (exec scanPage op p).2.pod ∧
      (exec scanPage op p).2.pod.hasServer = p.pod.hasServer ∧
      (exec scanPage op p).2.thread .sigterm = p.thread .sigterm := by
  cases op with
  | pod op =>
    refine ⟨Pod.stopsIn_exec scanPage henabled, ?_, rfl⟩
    cases op with
    | resetServer => cases hop
    | _ => rfl
  | enter m | leave m | joinable m | join m =>
    cases m with
    | sigterm => cases hop
    | activity => exact ⟨⟨id, id, id⟩, rfl, rfl⟩
  | exchange => cases hop
  | _ => exact ⟨⟨id, id, id⟩, rfl, rfl⟩

theorem exec_flag {op : ProcessOp} (hop : op.quiet = true) (hset : op ≠ .setSigTermReceived)
    (scanPage : ScanPolicy) (p : ServerProcess sim) :
    (exec scanPage op p).2.sigTermReceived = p.sigTermReceived := by
  cases op with
  | exchange => cases hop
  | setSigTermReceived => exact absurd rfl hset
  | _ => rfl

theorem takesSignal_of_quiet {op : ProcessOp} (hop : op.quiet = true) (t : ℕ) (res : op.Res) :
    takesSignal ⟨t, op, res⟩ = false := by
  cases op with
  | exchange => cases hop
  | _ => rfl

end ServerProcess

namespace Living
open ServerProcess
variable {p : ServerProcess sim} {log : ProcessLog} {scanPage : ScanPolicy}

theorem quiet (h : Living p phases log) (ht : phases t = some (req, φ)) {op : ProcessOp}
    (hop : op.quiet = true) (henabled : enabled op p = true) :
    Living (exec scanPage op p).2 (Function.update phases t (some (req, φ)))
      (⟨t, op, (exec scanPage op p).1⟩ :: log) := by
  by_cases hset : op = .setSigTermReceived
  · subst hset
    exact h.deliver ht
  · obtain ⟨hstops, hserver, hthread⟩ := exec_of_quiet hop scanPage henabled
    have hflag := exec_flag hop hset scanPage p
    refine h.calm ht (takesSignal_of_quiet hop t _) hstops hserver hthread hflag.symm.trans Iff.rfl
      id Iff.rfl Iff.rfl ?_
    exact (h.knows t req φ ht).later hstops (fun _ => hserver.trans) hthread.trans

theorem resetServer (h : Living p phases log) (ht : phases t = some (req, φ))
    (hclosed : p.pod.Closed) (hentered : p.thread .sigterm ≠ .created)
    (halone : ∀ u req' ψ, u ≠ t → phases u = some (req', ψ) → ¬ ψ.AtWork)
    (hwork : φ'.AtWork ↔ φ.AtWork) (hasleep : φ' = .asleep → φ = .asleep)
    (hhandled : φ' = .handled ↔ φ = .handled) (htook : φ'.Took ↔ φ.Took)
    (hφ : φ'.Knows (exec scanPage (.pod .resetServer) p).2) :
    Living (exec scanPage (.pod .resetServer) p).2 (Function.update phases t (some (req, φ')))
      (⟨t, .pod .resetServer, ()⟩ :: log) where
  owned := h.owned_update ht (Or.imp hasleep (Or.imp hwork.mp hhandled.mp))
  sigterm := h.sigterm.keep ht hwork.mpr (or_congr hwork hhandled) hhandled.mpr
  knows := by
    refine h.knows_update ⟨id, id, fun _ => rfl⟩ (fun u req' ψ hut hu hψ => ?_) id hφ
    refine absurd ?_ (halone u req' ψ hut hu)
    rcases hψ with rfl | rfl <;> trivial
  closed _ := hclosed
  unentered hcreated := absurd hcreated hentered
  taken := h.taken_update ht rfl htook
  delivered := h.delivered_update rfl id

theorem received (h : Living p phases log) (ht : phases t = some (req, .testing))
    (hflag : p.sigTermReceived = true) :
    Living { p with sigTermReceived := false }
      (Function.update phases t (some (req, .handling .serving)))
      (⟨t, .exchange, true⟩ :: log) where
  owned := h.owned_update ht fun _ => Or.inr (Or.inl trivial)
  sigterm := h.sigterm.keep ht id (iff_of_true (Or.inl trivial) (Or.inl trivial))
    LifePhase.noConfusion
  knows := h.knows_update ⟨id, id, id⟩ (fun _ _ _ _ _ _ h => h) id trivial
  closed := h.closed
  unentered := h.unentered
  taken := by
    obtain ⟨u, hsubset⟩ := h.sigterm.took_subset
    have hfinite := (Set.finite_singleton u).subset hsubset
    have hnot : t ∉ threads phases fun _ φ => φ.Took := by
      rw [mem_threads ht]
      exact id
    have htook : LifePhase.Took (.handling .serving) := trivial
    rw [List.countP_cons_of_pos rfl, threads_update_pos (p := fun _ φ => LifePhase.Took φ) htook,
      Set.ncard_insert_of_notMem hnot hfinite, h.taken]
  delivered _ := by
    obtain ⟨u, hu⟩ := h.delivered (Or.inl hflag)
    exact ⟨u, List.mem_cons_of_mem _ hu⟩

theorem enter (h : Living p phases log) (ht : phases t = some (req, .asleep))
    (hcreated : p.thread .sigterm = .created) :
    Living (p.setThread .sigterm .running) (Function.update phases t (some (req, .watching)))
      (⟨t, .enter .sigterm, ()⟩ :: log) where
  owned := h.owned_update ht fun _ => Or.inl rfl
  sigterm := (hcreated ▸ h.sigterm).enter trivial
  knows := by
    refine h.knows_update ⟨id, id, id⟩ (fun _ _ _ _ _ _ h => h) ?_ (h.unentered hcreated)
    rw [hcreated]
    exact ThreadState.noConfusion
  closed := h.closed
  unentered := ThreadState.noConfusion
  taken := h.taken_update ht rfl Iff.rfl
  delivered := h.delivered_update rfl id

theorem leave (h : Living p phases log) (ht : phases t = some (req, .handling .gone)) :
    Living (p.setThread .sigterm .finished) (Function.update phases t (some (req, .handled)))
      (⟨t, .leave .sigterm, ()⟩ :: log) where
  owned := h.owned_update ht fun _ => Or.inr (Or.inl trivial)
  sigterm := h.sigterm.leave ht trivial
  knows := by
    refine h.knows_update ⟨id, id, id⟩ (fun _ _ _ _ _ _ h => h) ?_ trivial
    rw [(h.sigterm.atWork ht trivial).1]
    exact ThreadState.noConfusion
  closed := h.closed
  unentered := ThreadState.noConfusion
  taken := h.taken_update ht rfl Iff.rfl
  delivered := h.delivered_update rfl id

theorem join (h : Living p phases log) (ht : phases t = some (req, .main))
    (hfinished : p.thread .sigterm = .finished) :
    Living (p.setThread .sigterm .joined)
      (Function.update phases t (some (req, .destroying .serving)))
      (⟨t, .join .sigterm, ()⟩ :: log) where
  owned := h.owned_update ht (by rintro (h | h | h) <;> cases h)
  sigterm := (hfinished ▸ h.sigterm).join ht (by rintro (h | h) <;> cases h)
    (by rintro (h | h) <;> cases h)
  knows := h.knows_update ⟨id, id, id⟩ (fun _ _ _ _ _ _ h => h) (fun _ => rfl) ⟨trivial, rfl⟩
  closed := h.closed
  unentered := ThreadState.noConfusion
  taken := h.taken_update ht rfl Iff.rfl
  delivered := h.delivered_update rfl id

theorem hasServer_of_stopStep {stage stage' : Stopping} {op : PodOp} {res : op.Res}
    (hstep : StopStep stage op res stage') (hop : op ≠ .resetServer) (q : Pod sim) :
    (Pod.exec scanPage op q).2.hasServer = q.hasServer := by
  cases hstep with
  | resetServer => exact absurd rfl hop
  | _ => rfl

theorem step (h : Living p phases log) (ht : phases t = some (req, φ)) {op : ProcessOp}
    (hstep : LifeStep φ op (exec scanPage op p).1 φ') (henabled : enabled op p = true) :
    Living (exec scanPage op p).2 (Function.update phases t (some (req, φ')))
      (⟨t, op, (exec scanPage op p).1⟩ :: log) := by
  have hknows : φ.Knows p := h.knows t req φ ht
  generalize hres : (exec scanPage op p).1 = res at hstep
  cases hstep with
  | quiet φ res hop =>
    rw [← hres]
    exact h.quiet ht hop henabled
  | reads φ present => exact h.calm ht rfl ⟨id, id, id⟩ rfl rfl id Iff.rfl id Iff.rfl Iff.rfl hknows
  | enter => exact h.enter ht (beq_iff_eq.mp henabled)
  | present =>
    exact h.calm ht rfl ⟨id, id, id⟩ rfl rfl id Iff.rfl LifePhase.noConfusion
      ⟨LifePhase.noConfusion, LifePhase.noConfusion⟩ Iff.rfl hknows
  | missed =>
    have hgone : p.pod.hasServer = false := hres
    rw [show p.pod.hasServer = true from hknows] at hgone
    cases hgone
  | received => exact h.received ht hres
  | notReceived =>
    exact h.calm ht rfl ⟨id, id, id⟩ rfl rfl Bool.noConfusion Iff.rfl LifePhase.noConfusion
      ⟨LifePhase.noConfusion, LifePhase.noConfusion⟩ Iff.rfl hknows
  | leaveMissed => exact hknows.elim
  | leave => exact h.leave ht
  | joinable => exact h.calm ht rfl ⟨id, id, id⟩ rfl rfl id Iff.rfl id Iff.rfl Iff.rfl trivial
  | joined =>
    have hjoined : p.thread .sigterm = .joined := bne_eq_false_iff_eq.mp hres
    exact h.calm ht rfl ⟨id, id, id⟩ rfl rfl id Iff.rfl LifePhase.noConfusion
      ⟨LifePhase.noConfusion, LifePhase.noConfusion⟩ Iff.rfl ⟨trivial, hjoined⟩
  | join => exact h.join ht (beq_iff_eq.mp henabled)
  | @handling stage stage' op res hstop =>
    have hknows' : stage'.Knows (Pod.exec scanPage op p.pod).2 :=
      StopStep.knows (hres ▸ hstop) hknows henabled
    by_cases hop : op = .resetServer
    · subst hop
      cases hstop
      obtain ⟨hrunning, honly⟩ := h.sigterm.atWork ht trivial
      refine h.resetServer ht hknows ?_ (fun u req' ψ hut hu hψ => ?_) Iff.rfl
        LifePhase.noConfusion ⟨LifePhase.noConfusion, LifePhase.noConfusion⟩ Iff.rfl hknows'
      · rw [hrunning]
        exact ThreadState.noConfusion
      · have hmem : u ∈ threads phases fun _ φ => φ.Entered := ⟨req', ψ, hu, Or.inl hψ⟩
        rw [honly] at hmem
        exact hut hmem
    · exact h.calm ht rfl (Pod.stopsIn_exec scanPage henabled)
        (hasServer_of_stopStep hstop hop p.pod) rfl id Iff.rfl LifePhase.noConfusion
        ⟨LifePhase.noConfusion, LifePhase.noConfusion⟩ Iff.rfl hknows'
  | @destroying stage stage' op res hstop =>
    have hjoined : p.thread .sigterm = .joined := hknows.2
    have hknows' : stage'.Knows (Pod.exec scanPage op p.pod).2 :=
      StopStep.knows (hres ▸ hstop) hknows.1 henabled
    by_cases hop : op = .resetServer
    · subst hop
      cases hstop
      refine h.resetServer ht hknows.1 ?_ (fun u req' ψ _ hu hψ => ?_) Iff.rfl
        LifePhase.noConfusion ⟨LifePhase.noConfusion, LifePhase.noConfusion⟩ Iff.rfl
        ⟨hknows', hjoined⟩
      · rw [hjoined]
        exact ThreadState.noConfusion
      · rw [(h.sigterm.atWork hu hψ).1] at hjoined
        cases hjoined
    · exact h.calm ht rfl (Pod.stopsIn_exec scanPage henabled)
        (hasServer_of_stopStep hstop hop p.pod) rfl id Iff.rfl LifePhase.noConfusion
        ⟨LifePhase.noConfusion, LifePhase.noConfusion⟩ Iff.rfl ⟨hknows', hjoined⟩

end Living

end life

namespace ServerProcess
open Protocol LifePhase
variable {sim : Simulator} {cfg : ServiceConfig} {scanPage : ScanPolicy}
  {server : ServerState sim Store}
  {c : Config (ServerProcess sim) (ProcessRequest cfg.podIp) ProcessOp ProcessOp.Res ProcessResult}

theorem living_of_viewReachable {v : View (ServerProcess sim) (ProcessRequest cfg.podIp) ProcessOp
      ProcessOp.Res LifePhase}
    (h : (lifeProtocol cfg.podIp).ViewReachable (system sim cfg scanPage) (fun _ => True)
      (fun _ _ _ _ => True) (started server) v) : Living v.shared v.phases v.log := by
  induction h with
  | init => exact .init server
  | start _ hfresh _ ih => exact ih.start hfresh _
  | op _ ht henabled _ hnext ih => exact ih.step ht (step_of_next hnext) henabled

theorem living_of_reachable
    (h : (system sim cfg scanPage).Reachable (fun _ _ => True) (started server) c) :
    (lifeProtocol cfg.podIp).Tracks Anything c ∧
      Living c.shared ((lifeProtocol cfg.podIp).view c).phases c.log := by
  have hguarded : (system sim cfg scanPage).Reachable
      ((lifeProtocol cfg.podIp).guarded (fun _ => True) fun _ _ _ _ => True) (started server) c := by
    refine h.mono fun c a _ => ?_
    cases a with
    | start req => trivial
    | run t => exact fun _ _ _ => trivial
  have hcode : ∀ req, True → (lifeProtocol cfg.podIp).Follows Anything req
      ((lifeProtocol cfg.podIp).start req) ((system sim cfg scanPage).code req) :=
    fun req _ => (code_ends cfg req).follows fun a ψ hψ => ⟨a, hψ⟩
  obtain ⟨htracks, hview⟩ := tracks_of_reachable (fun _ _ => trivial) hcode hguarded
  exact ⟨htracks, living_of_viewReachable hview⟩

/-- The flag is found set at most once, whatever signals come, and whenever. -/
theorem taken_le_one
    (h : (system sim cfg scanPage).Reachable (fun _ _ => True) (started server) c) :
    c.log.countP takesSignal ≤ 1 := by
  obtain ⟨-, hliving⟩ := living_of_reachable h
  obtain ⟨u, hsubset⟩ := hliving.sigterm.took_subset
  rw [hliving.taken, ← Set.ncard_singleton u]
  exact Set.ncard_le_ncard hsubset (Set.finite_singleton u)

theorem path_of_handled {podIp : String} {req : ProcessRequest podIp} {address : String}
    {turns : ℕ} {es : List (Exchange ProcessOp ProcessOp.Res)} {result : ProcessResult}
    (h : Path (sigtermLoop address turns) es (.ret result))
    (hhandled : (lifeProtocol podIp).along req .watching es = some .handled) :
    result = .thread .returned ∧ ∃ es' fs r, es = es' ++ fs ++ [⟨.leave .sigterm, ()⟩] ∧
      Path (pods (Pod.gracefulShutdown address)) fs (.ret r) := by
  induction turns generalizing es with
  | zero =>
    obtain ⟨rfl, -⟩ := Path.ret_iff.mp h
    cases hhandled
  | succ turns ih =>
    obtain ⟨present, es₁, rfl, h₁⟩ := Path.call_ret_iff.mp h
    cases present with
    | false =>
      obtain ⟨_, es₂, rfl, h₂⟩ := Path.call_ret_iff.mp h₁
      obtain ⟨rfl, -⟩ := Path.ret_iff.mp h₂
      cases hhandled
    | true =>
      have hturn : Path (runHandlerIfReceived address >>= fun ran => if ran then leaveWith .sigterm
          else Prog.op (ProcessOp.pod .sleep) >>= fun _ => sigtermLoop address turns) es₁
          (.ret result) := h₁
      obtain ⟨ran, fs, gs, rfl, hrun, hrest⟩ := Path.bind_ret_iff.mp hturn
      obtain ⟨received, fs₁, rfl, hfs⟩ := Path.call_ret_iff.mp hrun
      cases received with
      | false =>
        obtain ⟨rfl, heq⟩ := Path.ret_iff.mp hfs
        cases heq
        obtain ⟨_, gs₁, rfl, hloop⟩ := Path.call_ret_iff.mp hrest
        obtain ⟨hresult, es', fs', r, rfl, hpath⟩ := ih hloop hhandled
        exact ⟨hresult, ⟨.pod .hasServer, true⟩ :: ⟨.exchange, false⟩ :: ⟨.pod .sleep, ()⟩ :: es',
          fs', r, rfl, hpath⟩
      | true =>
        have hhandler : Path (pods (Pod.gracefulShutdown address) >>= fun _ => .ret true) fs₁
            (.ret ran) := hfs
        obtain ⟨r, fs', _, rfl, hpath, hret⟩ := Path.bind_ret_iff.mp hhandler
        obtain ⟨rfl, heq⟩ := Path.ret_iff.mp hret
        cases heq
        obtain ⟨_, _, rfl, hleave⟩ := Path.call_ret_iff.mp hrest
        obtain ⟨rfl, heq⟩ := Path.ret_iff.mp hleave
        cases heq
        refine ⟨rfl, [⟨.pod .hasServer, true⟩, ⟨.exchange, true⟩], fs', r, ?_, hpath⟩
        simp

/-- SIGTERM has come, its handler has been run once and to its end, and the server is gone:
no call is accepted and no handler is running. -/
structure ShutDownOnce {podIp : String}
    (c : Config (ServerProcess sim) (ProcessRequest podIp) ProcessOp ProcessOp.Res ProcessResult) :
    Prop where
  delivered : Delivered c.log
  once : c.log.countP takesSignal = 1
  handled : ∃ (u turns : ℕ) (es fs : List (Exchange ProcessOp ProcessOp.Res)) (r : PodResult),
    c.pool[u]? = some ⟨.sigtermThread turns, .ret (.thread .returned)⟩ ∧
      history u c.log = es ++ fs ++ [⟨.leave .sigterm, ()⟩] ∧
      Path (pods (Pod.gracefulShutdown podIp)) fs (.ret r)
  serverGone : c.shared.pod.hasServer = false
  closed : c.shared.pod.Closed

theorem handler_of_handled
    (h : (system sim cfg scanPage).Reachable (fun _ _ => True) (started server) c) {u : ℕ}
    {req : ProcessRequest cfg.podIp}
    (hu : ((lifeProtocol cfg.podIp).view c).phases u = some (req, .handled)) :
    ∃ (turns : ℕ) (es fs : List (Exchange ProcessOp ProcessOp.Res)) (r : PodResult),
      c.pool[u]? = some ⟨.sigtermThread turns, .ret (.thread .returned)⟩ ∧
        history u c.log = es ++ fs ++ [⟨.leave .sigterm, ()⟩] ∧
        Path (pods (Pod.gracefulShutdown cfg.podIp)) fs (.ret r) := by
  obtain ⟨htracks, hliving⟩ := living_of_reachable h
  obtain ⟨turns, rfl⟩ := hliving.owned u req _ hu (Or.inr (Or.inr rfl))
  obtain ⟨p, hpool⟩ := pool_of_phases hu
  obtain ⟨ψ, hψ, hfollows⟩ := htracks.exists_phase hpool
  rw [hu] at hψ
  cases hψ
  cases p with
  | call op next =>
    obtain ⟨φ', hnext, -⟩ := hfollows ((exec scanPage op c.shared).1) trivial
    cases hnext
  | ret result =>
    have hpath : Path (sigtermThread cfg.podIp turns) (history u c.log) (.ret result) :=
      (System.path_of_reachable h).2 u _ hpool
    have hphase : (lifeProtocol cfg.podIp).along (.sigtermThread turns) .asleep
        (history u c.log) = some .handled := by
      have hview := hu
      simp only [view, hpool, Option.bind_some, Option.map_eq_some_iff] at hview
      obtain ⟨ψ, hψ, heq⟩ := hview
      cases heq
      exact (phase_eq_along u c.log).symm.trans hψ
    obtain ⟨_, es, hes, hloop⟩ := Path.call_ret_iff.mp hpath
    rw [hes] at hphase ⊢
    obtain ⟨rfl, es', fs, r, rfl, hhandler⟩ := path_of_handled hloop hphase
    exact ⟨turns, ⟨.enter .sigterm, ()⟩ :: es', fs, r, hpool, rfl, hhandler⟩

/-- Whatever the threads do and whenever SIGTERM comes: main returns 0, and only after
GracefulShutdown has been run by its handler. -/
theorem main_returns_after_shutdown
    (h : (system sim cfg scanPage).Reachable (fun _ _ => True) (started server) c) {t : ℕ}
    {result : ProcessResult} (hmain : c.pool[t]? = some ⟨.main, .ret result⟩) :
    result = .exit 0 ∧ ShutDownOnce c := by
  obtain ⟨-, hliving⟩ := living_of_reachable h
  have hpath : Path main (history t c.log) (.ret result) := (System.path_of_reachable h).2 t _ hmain
  obtain ⟨ψ, hψ, rfl, rfl⟩ := main_ends.along hpath fun _ _ => trivial
  have ht : ((lifeProtocol cfg.podIp).view c).phases t = some (.main, .destroying .gone) := by
    have hphase : (lifeProtocol cfg.podIp).phase .main t c.log = some (.destroying .gone) :=
      (phase_eq_along t c.log).trans hψ
    simp only [view, hmain, Option.bind_some, hphase, Option.map_some]
  obtain ⟨hgone, hjoined⟩ := hliving.knows t _ _ ht
  obtain ⟨u, req, hu⟩ := SigtermKnown.handled (hjoined ▸ hliving.sigterm)
  have honce : c.log.countP takesSignal = 1 := by
    obtain ⟨v, hsubset⟩ := hliving.sigterm.took_subset
    have hfinite := (Set.finite_singleton v).subset hsubset
    refine le_antisymm (taken_le_one h) ?_
    rw [hliving.taken, Nat.one_le_iff_ne_zero, ← Nat.pos_iff_ne_zero, Set.ncard_pos hfinite]
    exact ⟨u, req, _, hu, trivial⟩
  obtain ⟨turns, es, fs, r, hhandler⟩ := handler_of_handled h hu
  refine ⟨rfl, ?_, honce, ⟨u, turns, es, fs, r, hhandler⟩, hgone, hliving.closed hgone⟩
  exact hliving.delivered (Or.inr (honce ▸ Nat.one_pos))

def mainHasReturned {podIp : String}
    (c : Config (ServerProcess sim) (ProcessRequest podIp) ProcessOp ProcessOp.Res ProcessResult)
    (t : ℕ) : Bool :=
  match c.pool[t]? with
  | some ⟨.main, .ret _⟩ => true
  | _ => false

theorem pool_of_mainHasReturned {podIp : String}
    {c : Config (ServerProcess sim) (ProcessRequest podIp) ProcessOp ProcessOp.Res ProcessResult}
    {t : ℕ} (h : mainHasReturned c t = true) : ∃ result, c.pool[t]? = some ⟨.main, .ret result⟩ := by
  unfold mainHasReturned at h
  split at h
  · rename_i result hpool
    exact ⟨result, hpool⟩
  · cases h

end ServerProcess

namespace Sample

abbrev serverProcess : System (ServerProcess simulator) (ProcessRequest podA.address) ProcessOp
    ProcessOp.Res ProcessResult :=
  ServerProcess.system simulator ⟨text, "server-0", podA.address⟩ scanAll

def spawn (req : ProcessRequest podA.address) : List (Action (ProcessRequest podA.address)) :=
  [.start req]
def runs (t n : ℕ) : List (Action (ProcessRequest podA.address)) := List.replicate n (.run t)

def signalledTwice : List (Action (ProcessRequest podA.address)) :=
  spawn .main ++ spawn (.sigtermThread 2) ++ spawn (.activityThread 2) ++
    spawn (.heartbeatThread 1) ++ spawn (.metricsThread true [.nothing]) ++ runs 0 1 ++ runs 1 4 ++
    spawn (.signal SIGTERM) ++ runs 5 1 ++ runs 1 6 ++ spawn (.signal SIGTERM) ++ runs 6 1 ++
    runs 1 12 ++ runs 3 3 ++ runs 1 3 ++ runs 4 3 ++ runs 1 6 ++ runs 0 3 ++ runs 2 3 ++ runs 0 6

end Sample

open Sample in
theorem ServerProcess.main_returns_when_signalledTwice : ∃ c result,
    serverProcess.Reachable (fun _ _ => True) (started (GameService.initState 10 ∅)) c ∧
      c.pool[0]? = some ⟨.main, .ret result⟩ ∧ result = .exit 0 ∧ ShutDownOnce c := by
  obtain ⟨c, hreach, hcheck⟩ := System.exists_reachable_of_schedule (S := serverProcess)
    (s := started (GameService.initState 10 ∅)) signalledTwice (fun c => mainHasReturned c 0)
    (by decide +kernel)
  obtain ⟨result, hmain⟩ := pool_of_mainHasReturned hcheck
  exact ⟨c, result, hreach, hmain, main_returns_after_shutdown hreach hmain⟩

end PokemonServer
