import PokemonServer.WorkerLoops

/-!
# Nothing blocks a pod that shuts down

The threads of a pod wait for the two locks, for a worker that is to be joined and for
the handlers in flight. Wherever they are, they can go on until every thread has returned
but for the calls that Shutdown turns away: the only thing that GracefulShutdown can wait
for without end is a worker that never looks at its flag again, which here is a worker
whose loop is cut off. Redis and the clients of the metrics port are taken to answer.
-/

namespace PokemonServer
open Interleaving

/-- How far a thread has come in what other threads may wait for. GracefulShutdown has
joined some workers, and told one to stop. -/
inductive ControlPhase where
  | free
  | calling
  | inFlight
  | answered
  | created (w : Worker)
  | looping (w : Worker)
  | left (w : Worker)
  | stopping (joined : List Worker) (told : Option Worker)

namespace ControlPhase

def start {podIp : String} : PodRequest podIp → ControlPhase
  | .rpc _ => .calling
  | .heartbeatThread _ => .created .heartbeat
  | .metricsThread _ _ => .created .metrics
  | .gracefulShutdown => .stopping [] none
  | .foreign _ => .free

def next : ControlPhase → PodOp → Option ControlPhase
  | .calling, .accept => some .inFlight
  | .inFlight, .respond => some .answered
  | .created w, .enter w' => if w' = w then some (.looping w) else none
  | .looping w, .leave w' => if w' = w then some (.left w) else none
  | .stopping joined _, .clearRunning w => some (.stopping joined (some w))
  | .stopping joined told, .join w =>
    if w ∉ joined ∧ told = some w then some (.stopping (w :: joined) told) else none
  | .stopping joined told, .awaitHandlers => some (.stopping joined told)
  | _, .accept | _, .respond | _, .enter _ | _, .leave _ | _, .clearRunning _ | _, .join _
  | _, .awaitHandlers => none
  | φ, _ => some φ

/-- A thread that returns with its loop ahead has been cut off; no other has. -/
def ReturnedIn : PodResult → ControlPhase → Prop
  | result, .looping _ => result = .cutOff
  | _, .calling | _, .inFlight | _, .created _ => False
  | result, _ => result ≠ .cutOff

end ControlPhase

def controlProtocol (podIp : String) :
    Protocol (PodRequest podIp) AtomicPodOp AtomicPodOp.Res ControlPhase where
  start := ControlPhase.start
  next _ φ op _ :=
    match op with
    | .room _ => some φ
    | .pod op => φ.next op
  final φ := ∃ result, φ.ReturnedIn result

namespace AtomicPod
open ControlPhase

def Anything : (op : AtomicPodOp) → op.Res → Prop := fun _ _ => True

variable {podIp : String} {req : PodRequest podIp} {φ : ControlPhase}

abbrev Ends {α : Type} (req : PodRequest podIp) (Q : α → ControlPhase → Prop) (φ : ControlPhase)
    (p : Steps α) : Prop := (controlProtocol podIp).EndsIn Anything req Q φ p

def Neutral (op : PodOp) : Prop := ∀ φ : ControlPhase, φ.next op = some φ

theorem neutral_server (op : ServerOp) : Neutral (.server op) := by
  intro φ
  cases φ <;> rfl

theorem onRooms_ends {α : Type} (p : Prog AtomicOp AtomicOp.Res α) :
    Ends req (fun _ ψ => ψ = φ) φ (p.expand fun o => .op (AtomicPodOp.room o)) := by
  induction p with
  | ret a => exact rfl
  | call o next ih => exact fun r _ => ⟨φ, rfl, ih r⟩

theorem steps_ends {op : PodOp} (hop : Neutral op) :
    Ends req (fun _ ψ => ψ = φ) φ (steps op) := by
  rw [steps]
  cases op.roomCall with
  | none => exact fun _ _ => ⟨φ, hop φ, rfl⟩
  | some x => exact (onRooms_ends _).bind fun _ _ h => h

theorem neutral_ends {α : Type} {p : Pod.Routine α} (hp : p.Issues Neutral) :
    Ends req (fun _ ψ => ψ = φ) φ (p.expand steps) :=
  Protocol.EndsIn.expand (I := (· = φ)) (fun _ hop _ hψ => hψ ▸ steps_ends hop) hp rfl

theorem handler_neutral {α : Type} (p : GameService.Handler α) :
    (Pod.handler p).Issues Neutral := by
  refine Prog.Issues.expand_all (fun o => ?_) p
  exact ⟨neutral_server o, fun _ => trivial⟩

theorem redis_neutral {α : Type} (p : RedisClient.Client α) : (Pod.redis p).Issues Neutral := by
  refine Prog.Issues.expand_all (fun o => ?_) p
  exact ⟨neutral_server (.redis o), fun _ => trivial⟩

theorem drain_neutral : Pod.drain.Issues Neutral := by
  have hsleep : Neutral .sleep := by
    intro φ
    cases φ <;> rfl
  have hset : Neutral (.setMaintenanceMode true) := by
    intro φ
    cases φ <;> rfl
  have hrooms : Neutral .getAllRooms := by
    intro φ
    cases φ <;> rfl
  have hwait : ∀ turns, (Pod.waitForRooms turns).Issues Neutral := by
    intro turns
    induction turns with
    | zero => trivial
    | succ turns ih => exact ⟨neutral_server _, fun _ => ⟨hsleep, fun _ => ih⟩⟩
  have hclose : ∀ roomIds, (Pod.closeRooms roomIds).Issues Neutral := by
    intro roomIds
    induction roomIds with
    | nil => trivial
    | cons roomId roomIds ih => exact ⟨neutral_server _, fun _ => ih⟩
  exact ⟨hset, fun _ => (hwait 5).bind fun _ => ⟨hrooms, hclose⟩⟩

theorem rpc_ends (cfg : ServiceConfig) (request : Request) :
    Ends req ReturnedIn .calling ((Pod.rpc cfg request).expand steps) := by
  refine fun _ _ => ⟨.inFlight, rfl, ?_⟩
  show Ends req _ _ ((Pod.handler (GameService.handle cfg request) >>= fun outcome =>
    Prog.op PodOp.respond >>= fun _ => .ret (PodResult.outcome outcome)).expand steps)
  rw [Prog.expand_bind]
  refine (neutral_ends (handler_neutral _)).bind ?_
  rintro outcome ψ rfl
  exact fun _ _ => ⟨.answered, rfl, PodResult.noConfusion⟩

theorem leave_ends (w : Worker) : Ends req ReturnedIn (.looping w)
    ((Prog.op (PodOp.leave w) >>= fun _ => .ret .returned : Pod.Routine PodResult).expand steps) :=
  fun _ _ => ⟨.left w, if_pos rfl, PodResult.noConfusion⟩

theorem heartbeatLoop_ends (turns : ℕ) :
    Ends req ReturnedIn (.looping .heartbeat) ((Pod.heartbeatLoop podIp turns).expand steps) := by
  induction turns with
  | zero => exact rfl
  | succ turns ih =>
    refine fun running _ => ⟨.looping .heartbeat, rfl, ?_⟩
    cases running with
    | false => exact leave_ends .heartbeat
    | true =>
      refine fun _ _ => ⟨.looping .heartbeat, rfl, ?_⟩
      show Ends req _ _ ((Pod.redis (GameService.refreshHeartbeat podIp 300) >>= fun _ =>
        Pod.heartbeatLoop podIp turns).expand steps)
      rw [Prog.expand_bind]
      refine (neutral_ends (redis_neutral _)).bind ?_
      rintro _ ψ rfl
      exact ih

theorem metricsLoop_ends (cfg : ServiceConfig) (turns : List MetricsTurn) :
    Ends req ReturnedIn (.looping .metrics) ((Pod.metricsLoop cfg turns).expand steps) := by
  induction turns with
  | nil => exact rfl
  | cons turn turns ih =>
    refine fun running _ => ⟨.looping .metrics, rfl, ?_⟩
    cases running with
    | false => exact leave_ends .metrics
    | true =>
    refine fun _ _ => ⟨.looping .metrics, rfl, fun running _ => ⟨.looping .metrics, rfl, ?_⟩⟩
    cases running with
    | false => exact leave_ends .metrics
    | true =>
    cases turn with
    | nothing | otherRequest => exact ih
    | scrape fuel =>
      show Ends req _ _ ((Pod.handler (GameService.collectMetricsSnapshot cfg fuel) >>= _).expand steps)
      rw [Prog.expand_bind]
      refine (neutral_ends (handler_neutral _)).bind ?_
      rintro snapshot ψ rfl
      cases snapshot with
      | none => exact rfl
      | some snapshot => exact ih

theorem stopWorker_ends {w : Worker} {joined : List Worker} {told : Option Worker}
    (hw : w ∉ joined) :
    Ends req (fun _ ψ => ψ = .stopping joined (some w) ∨ ψ = .stopping (w :: joined) (some w))
      (.stopping joined told) ((Pod.stopWorker w).expand steps) := by
  refine fun _ _ => ⟨.stopping joined (some w), rfl, fun joinable _ => ⟨_, rfl, ?_⟩⟩
  cases joinable with
  | false => exact Or.inl rfl
  | true => exact fun _ _ => ⟨.stopping (w :: joined) (some w), if_pos ⟨hw, rfl⟩, Or.inr rfl⟩

theorem gracefulShutdown_ends (address : String) :
    Ends req ReturnedIn (.stopping [] none) ((Pod.gracefulShutdown address).expand steps) := by
  rw [Pod.gracefulShutdown, Prog.expand_bind]
  refine (neutral_ends drain_neutral).bind ?_
  rintro _ ψ rfl
  rw [Prog.expand_bind]
  refine (neutral_ends (redis_neutral _)).bind ?_
  rintro _ ψ rfl
  rw [Pod.stop, Prog.bind_assoc, Prog.expand_bind]
  refine (stopWorker_ends List.not_mem_nil).bind fun _ ψ hψ => ?_
  obtain ⟨joined, told, rfl, hmetrics⟩ :
      ∃ joined told, ψ = .stopping joined told ∧ Worker.metrics ∉ joined := by
    rcases hψ with rfl | rfl
    · exact ⟨[], _, rfl, List.not_mem_nil⟩
    · exact ⟨[.heartbeat], _, rfl, by decide⟩
  rw [Prog.bind_assoc, Prog.expand_bind]
  refine (stopWorker_ends hmetrics).bind fun _ ψ hψ => ?_
  obtain ⟨joined, told, rfl⟩ : ∃ joined told, ψ = .stopping joined told := by
    rcases hψ with rfl | rfl <;> exact ⟨_, _, rfl⟩
  refine fun hasServer _ => ⟨.stopping joined told, rfl, ?_⟩
  cases hasServer with
  | false => exact PodResult.noConfusion
  | true =>
    exact fun _ _ => ⟨.stopping joined told, rfl, fun _ _ => ⟨.stopping joined told, rfl, fun _ _ =>
      ⟨.stopping joined told, rfl, PodResult.noConfusion⟩⟩⟩

theorem code_ends (cfg : ServiceConfig) (req : PodRequest cfg.podIp) :
    Ends req ReturnedIn (start req) (code cfg req) := by
  cases req with
  | rpc request => exact rpc_ends cfg request
  | heartbeatThread turns =>
    exact fun _ _ => ⟨.looping .heartbeat, rfl, heartbeatLoop_ends turns⟩
  | metricsThread listening turns =>
    refine fun _ _ => ⟨.looping .metrics, rfl, ?_⟩
    cases listening with
    | false => exact leave_ends .metrics
    | true => exact metricsLoop_ends cfg turns
  | gracefulShutdown => exact gracefulShutdown_ends cfg.podIp
  | foreign command =>
    show Ends _ _ _ ((Pod.foreign command).expand steps)
    rw [Pod.foreign, Prog.expand_bind]
    refine (neutral_ends (redis_neutral _)).bind ?_
    rintro _ ψ rfl
    exact PodResult.noConfusion

end AtomicPod

inductive ControlStep : ControlPhase → PodOp → ControlPhase → Prop
  | keep (φ : ControlPhase) {op : PodOp} : AtomicPod.Neutral op → ControlStep φ op φ
  | awaitHandlers (joined : List Worker) (told : Option Worker) :
      ControlStep (.stopping joined told) .awaitHandlers (.stopping joined told)
  | clear (w : Worker) (joined : List Worker) (told : Option Worker) :
      ControlStep (.stopping joined told) (.clearRunning w) (.stopping joined (some w))
  | accept : ControlStep .calling .accept .inFlight
  | respond : ControlStep .inFlight .respond .answered
  | enter (w : Worker) : ControlStep (.created w) (.enter w) (.looping w)
  | leave (w : Worker) : ControlStep (.looping w) (.leave w) (.left w)
  | join {w : Worker} {joined : List Worker} : w ∉ joined →
      ControlStep (.stopping joined (some w)) (.join w) (.stopping (w :: joined) (some w))

namespace ControlPhase
open Protocol

theorem step_of_next {φ φ' : ControlPhase} {op : PodOp} (h : φ.next op = some φ') :
    ControlStep φ op φ' := by
  cases op with
  | accept =>
    cases φ <;> cases h
    exact .accept
  | respond =>
    cases φ <;> cases h
    exact .respond
  | awaitHandlers =>
    cases φ <;> cases h
    exact .awaitHandlers _ _
  | clearRunning w =>
    cases φ <;> cases h
    exact .clear w _ _
  | enter w =>
    cases φ with
    | created w' =>
      simp only [next] at h
      split at h
      · rename_i heq
        cases h
        exact heq ▸ .enter w
      · cases h
    | _ => cases h
  | leave w =>
    cases φ with
    | looping w' =>
      simp only [next] at h
      split at h
      · rename_i heq
        cases h
        exact heq ▸ .leave w
      · cases h
    | _ => cases h
  | join w =>
    cases φ with
    | stopping joined told =>
      simp only [next] at h
      split at h
      · rename_i hw
        obtain ⟨hw, rfl⟩ := hw
        cases h
        exact .join hw
      · cases h
    | _ => cases h
  | _ =>
    obtain rfl : φ' = φ := by cases φ <;> cases h <;> rfl
    refine .keep φ' fun ψ => ?_
    cases ψ <;> rfl

def OwnedBy {podIp : String} (req : PodRequest podIp) : ControlPhase → Prop
  | .free => ∃ command, req = .foreign command
  | .calling | .inFlight | .answered => ∃ request, req = .rpc request
  | .created w | .looping w | .left w => req.worker = some w
  | .stopping _ _ => req = .gracefulShutdown

theorem ownedBy_start {podIp : String} (req : PodRequest podIp) : (start req).OwnedBy req := by
  cases req with
  | rpc request => exact ⟨request, rfl⟩
  | foreign command => exact ⟨command, rfl⟩
  | _ => rfl

theorem OwnedBy.step {podIp : String} {req : PodRequest podIp} {φ φ' : ControlPhase} {op : PodOp}
    (h : φ.OwnedBy req) (hstep : ControlStep φ op φ') : φ'.OwnedBy req := by
  cases hstep <;> exact h

def Entered (w : Worker) (φ : ControlPhase) : Prop := φ = .looping w ∨ φ = .left w

def HasTold (w : Worker) (φ : ControlPhase) : Prop := ∃ joined, φ = .stopping joined (some w)

def HasJoined (w : Worker) (φ : ControlPhase) : Prop :=
  ∃ joined told, φ = .stopping joined told ∧ w ∈ joined

end ControlPhase

section control
open Protocol ControlPhase
variable {sim : Simulator} {podIp : String} {phases : ℕ → Option (PodRequest podIp × ControlPhase)}
  {t : ℕ} {req : PodRequest podIp} {φ φ' : ControlPhase} {w : Worker} {state : ThreadState}
  {n : ℕ}

/-- A worker's std::thread is in the state that the phases of the threads say. -/
structure WorkerKnown (w : Worker) (state : ThreadState)
    (phases : ℕ → Option (PodRequest podIp × ControlPhase)) : Prop where
  entered : state ≠ .created ↔ (threads phases fun _ φ => φ.Entered w).Nonempty
  running : state = .running → (threads phases fun _ φ => φ = .looping w).Nonempty
  joined : state = .joined → (threads phases fun _ φ => φ.HasJoined w).Nonempty

namespace WorkerKnown

theorem init (w : Worker) :
    WorkerKnown w .created (fun _ => none : ℕ → Option (PodRequest podIp × ControlPhase)) where
  entered := by
    rw [threads_none]
    exact iff_of_false (fun h => h rfl) Set.not_nonempty_empty
  running h := by cases h
  joined h := by cases h

theorem start (h : WorkerKnown w state phases) (hfresh : phases t = none)
    (req : PodRequest podIp) :
    WorkerKnown w state (Function.update phases t (some (req, ControlPhase.start req))) where
  entered := by
    have hsame : threads (Function.update phases t (some (req, ControlPhase.start req)))
        (fun _ φ => φ.Entered w) = threads phases fun _ φ => φ.Entered w :=
      threads_start hfresh (by cases req <;> rintro (h | h) <;> cases h)
    rw [hsame]
    exact h.entered
  running hstate := (h.running hstate).mono (subset_threads_start hfresh)
  joined hstate := (h.joined hstate).mono (subset_threads_start hfresh)

theorem keep (h : WorkerKnown w state phases) (ht : phases t = some (req, φ))
    (hentered : φ'.Entered w ↔ φ.Entered w) (hlooping : φ = .looping w → φ' = .looping w)
    (hjoined : φ.HasJoined w → φ'.HasJoined w) :
    WorkerKnown w state (Function.update phases t (some (req, φ'))) where
  entered := by
    have hsame := threads_update_iff (p := fun _ φ => φ.Entered w) ht hentered
    rw [hsame]
    exact h.entered
  running hstate :=
    (h.running hstate).mono (subset_threads_update (p := fun _ φ => φ = .looping w) ht hlooping)
  joined hstate :=
    (h.joined hstate).mono (subset_threads_update (p := fun _ φ => φ.HasJoined w) ht hjoined)

theorem nonempty {K : ControlPhase → Prop} (hφ : K φ) :
    (threads (Function.update phases t (some (req, φ))) fun _ φ => K φ).Nonempty :=
  ⟨t, req, φ, Function.update_self .., hφ⟩

theorem enter (w : Worker) :
    WorkerKnown w .running (Function.update phases t (some (req, .looping w))) where
  entered := iff_of_true (by decide) (nonempty (Or.inl rfl))
  running _ := nonempty rfl
  joined h := by cases h

theorem leave (w : Worker) :
    WorkerKnown w .finished (Function.update phases t (some (req, .left w))) where
  entered := iff_of_true (by decide) (nonempty (Or.inr rfl))
  running h := by cases h
  joined h := by cases h

theorem join (h : WorkerKnown w .finished phases) {joined : List Worker} {told : Option Worker}
    (ht : phases t = some (req, .stopping joined told)) :
    WorkerKnown w .joined (Function.update phases t (some (req, .stopping (w :: joined) told))) where
  entered := by
    have hentered := h.entered.mp (by decide)
    refine iff_of_true (by decide) (hentered.mono ?_)
    refine subset_threads_update (p := fun _ φ => φ.Entered w) ht ?_
    rintro (h | h) <;> cases h
  running h := by cases h
  joined _ := nonempty ⟨w :: joined, told, rfl, List.mem_cons_self⟩

end WorkerKnown

structure InFlightCounted (n : ℕ) (phases : ℕ → Option (PodRequest podIp × ControlPhase)) :
    Prop where
  finite : (threads phases fun _ φ => φ = .inFlight).Finite
  card : (threads phases fun _ φ => φ = .inFlight).ncard = n

namespace InFlightCounted

theorem init : InFlightCounted 0 (fun _ => none : ℕ → Option (PodRequest podIp × ControlPhase)) where
  finite := by
    rw [threads_none]
    exact Set.finite_empty
  card := by rw [threads_none, Set.ncard_empty]

theorem of_eq {phases' : ℕ → Option (PodRequest podIp × ControlPhase)} (h : InFlightCounted n phases)
    (heq : threads phases' (fun _ φ => φ = .inFlight) = threads phases fun _ φ => φ = .inFlight) :
    InFlightCounted n phases' := ⟨heq ▸ h.finite, heq ▸ h.card⟩

theorem accept (h : InFlightCounted n phases) (ht : phases t = some (req, .calling)) :
    InFlightCounted (n + 1) (Function.update phases t (some (req, .inFlight))) := by
  have hnot : t ∉ threads phases fun _ φ => φ = .inFlight := by
    rw [mem_threads ht]
    exact ControlPhase.noConfusion
  have hupdate : threads (Function.update phases t (some (req, .inFlight)))
      (fun _ φ => φ = .inFlight) = insert t (threads phases fun _ φ => φ = .inFlight) :=
    threads_update_pos (p := fun _ φ => φ = ControlPhase.inFlight) rfl
  constructor
  · rw [hupdate]
    exact h.finite.insert t
  · rw [hupdate, Set.ncard_insert_of_notMem hnot h.finite, h.card]

theorem respond (h : InFlightCounted n phases) (ht : phases t = some (req, .inFlight)) :
    InFlightCounted (n - 1) (Function.update phases t (some (req, .answered))) := by
  have hmem : t ∈ threads phases fun _ φ => φ = .inFlight := (mem_threads ht).mpr rfl
  have hupdate : threads (Function.update phases t (some (req, .answered)))
      (fun _ φ => φ = .inFlight) = (threads phases fun _ φ => φ = .inFlight) \ {t} :=
    threads_update_neg (p := fun _ φ => φ = ControlPhase.inFlight) ControlPhase.noConfusion
  constructor
  · rw [hupdate]
    exact h.finite.sdiff
  · rw [hupdate, Set.ncard_sdiff_singleton_of_mem hmem, h.card]

end InFlightCounted

/-- What the pod keeps of its threads is as their phases say. -/
structure Controlled (p : Pod sim) (phases : ℕ → Option (PodRequest podIp × ControlPhase)) :
    Prop where
  owned : ∀ t req φ, phases t = some (req, φ) → φ.OwnedBy req
  inFlight : InFlightCounted p.inFlight phases
  workers : ∀ w, WorkerKnown w (p.thread w) phases
  told : ∀ t req φ, phases t = some (req, φ) → ∀ w, φ.HasTold w → p.running w = false

theorem Controlled.init (server : ServerState sim Store) :
    Controlled (Pod.started server)
      (fun _ => none : ℕ → Option (PodRequest podIp × ControlPhase)) where
  owned t req φ h := by cases h
  inFlight := .init
  workers := .init
  told t req φ h := by cases h

theorem Controlled.start {p : Pod sim} (h : Controlled p phases) (hfresh : phases t = none)
    (req : PodRequest podIp) :
    Controlled p (Function.update phases t (some (req, ControlPhase.start req))) where
  owned := forall_update (ownedBy_start req) fun u req' ψ _ => h.owned u req' ψ
  inFlight := h.inFlight.of_eq
    (threads_start hfresh (by cases req <;> exact ControlPhase.noConfusion))
  workers w := (h.workers w).start hfresh req
  told := forall_update (by cases req <;> rintro w ⟨_, h⟩ <;> cases h)
    fun u req' ψ _ => h.told u req' ψ

theorem Controlled.same {p p' : Pod sim} (h : Controlled p phases)
    (hthread : p'.thread = p.thread) (hinFlight : p'.inFlight = p.inFlight)
    (hrunning : p'.running = p.running) (ht : phases t = some (req, φ)) :
    Controlled p' (Function.update phases t (some (req, φ))) := by
  rw [← ht, Function.update_eq_self]
  exact ⟨h.owned, hinFlight ▸ h.inFlight, hthread ▸ h.workers, hrunning ▸ h.told⟩

theorem Pod.exec_of_neutral {op : PodOp} (hop : AtomicPod.Neutral op) (scanPage : ScanPolicy)
    (p : Pod sim) : (Pod.exec scanPage op p).2.thread = p.thread ∧
      (Pod.exec scanPage op p).2.inFlight = p.inFlight ∧
      (Pod.exec scanPage op p).2.running = p.running := by
  cases op with
  | enter _ | leave _ | clearRunning _ | join _ | accept | respond => cases hop .free
  | _ => exact ⟨rfl, rfl, rfl⟩

theorem Pod.running_exec {p : Pod sim} (h : p.running w = false) (scanPage : ScanPolicy)
    (op : PodOp) : (Pod.exec scanPage op p).2.running w = false := by
  cases op with
  | clearRunning w' =>
    simp only [Pod.exec]
    by_cases hw : w = w'
    · rw [hw, Function.update_self]
    · rw [Function.update_of_ne hw]
      exact h
  | _ => exact h

theorem ControlStep.hasTold {op : PodOp} (h : ControlStep φ op φ') (hw : φ'.HasTold w) :
    φ.HasTold w ∨ op = .clearRunning w := by
  obtain ⟨joined, rfl⟩ := hw
  cases h with
  | keep _ _ | awaitHandlers _ _ => exact Or.inl ⟨_, rfl⟩
  | clear _ _ _ => exact Or.inr rfl
  | join _ => exact Or.inl ⟨_, rfl⟩

theorem Controlled.step {p : Pod sim} (h : Controlled p phases) (scanPage : ScanPolicy)
    (ht : phases t = some (req, φ)) {op : PodOp} (hstep : ControlStep φ op φ')
    (henabled : Pod.enabled op p = true) :
    Controlled (Pod.exec scanPage op p).2 (Function.update phases t (some (req, φ'))) := by
  have howned : ∀ u req' ψ, Function.update phases t (some (req, φ')) u = some (req', ψ) →
      ψ.OwnedBy req' := forall_update ((h.owned t req φ ht).step hstep)
    fun u req' ψ _ => h.owned u req' ψ
  have htold : ∀ u req' ψ, Function.update phases t (some (req, φ')) u = some (req', ψ) →
      ∀ w, ψ.HasTold w → (Pod.exec scanPage op p).2.running w = false := by
    refine forall_update (fun w hw => ?_)
      fun u req' ψ _ hu w hw => Pod.running_exec (h.told u req' ψ hu w hw) scanPage op
    rcases hstep.hasTold hw with hw | rfl
    · exact Pod.running_exec (h.told t req φ ht w hw) scanPage op
    · exact Function.update_self ..
  cases hstep with
  | keep _ hop =>
    obtain ⟨hthread, hinFlight, hrunning⟩ := Pod.exec_of_neutral hop scanPage p
    exact h.same hthread hinFlight hrunning ht
  | awaitHandlers joined told => exact h.same rfl rfl rfl ht
  | clear w joined told =>
    refine ⟨howned, h.inFlight.of_eq (threads_update_iff ht ?_), fun w' => ?_, htold⟩
    · exact iff_of_false ControlPhase.noConfusion ControlPhase.noConfusion
    · refine (h.workers w').keep ht ?_ ControlPhase.noConfusion ?_
      · exact iff_of_false (by rintro (h | h) <;> cases h) (by rintro (h | h) <;> cases h)
      · rintro ⟨_, _, heq, hmem⟩
        cases heq
        exact ⟨joined, some w, rfl, hmem⟩
  | accept =>
    refine ⟨howned, h.inFlight.accept ht, fun w => (h.workers w).keep ht ?_ ?_ ?_, htold⟩
    · exact iff_of_false (by rintro (h | h) <;> cases h) (by rintro (h | h) <;> cases h)
    · exact ControlPhase.noConfusion
    · rintro ⟨_, _, h, -⟩
      cases h
  | respond =>
    refine ⟨howned, h.inFlight.respond ht, fun w => (h.workers w).keep ht ?_ ?_ ?_, htold⟩
    · exact iff_of_false (by rintro (h | h) <;> cases h) (by rintro (h | h) <;> cases h)
    · exact ControlPhase.noConfusion
    · rintro ⟨_, _, h, -⟩
      cases h
  | enter w =>
    refine ⟨howned, h.inFlight.of_eq (threads_update_iff ht ?_), fun w' => ?_, htold⟩
    · exact iff_of_false ControlPhase.noConfusion ControlPhase.noConfusion
    · by_cases hw : w' = w
      · subst hw
        simp only [Pod.exec, Pod.setThread, Function.update_self]
        exact .enter w'
      · simp only [Pod.exec, Pod.setThread, Function.update_of_ne hw]
        refine (h.workers w').keep ht ?_ ControlPhase.noConfusion ?_
        · refine iff_of_false ?_ (by rintro (h | h) <;> cases h)
          rintro (heq | heq) <;> cases heq
          exact hw rfl
        · rintro ⟨_, _, h, -⟩
          cases h
  | leave w =>
    refine ⟨howned, h.inFlight.of_eq (threads_update_iff ht ?_), fun w' => ?_, htold⟩
    · exact iff_of_false ControlPhase.noConfusion ControlPhase.noConfusion
    · by_cases hw : w' = w
      · subst hw
        simp only [Pod.exec, Pod.setThread, Function.update_self]
        exact .leave w'
      · simp only [Pod.exec, Pod.setThread, Function.update_of_ne hw]
        refine (h.workers w').keep ht ?_ ?_ ?_
        · refine iff_of_false ?_ ?_ <;>
            (rintro (heq | heq) <;> cases heq; exact hw rfl)
        · intro heq
          cases heq
          exact absurd rfl hw
        · rintro ⟨_, _, h, -⟩
          cases h
  | @join w joined hjoined =>
    refine ⟨howned, h.inFlight.of_eq (threads_update_iff ht ?_), fun w' => ?_, htold⟩
    · exact iff_of_false ControlPhase.noConfusion ControlPhase.noConfusion
    · by_cases hw : w' = w
      · subst hw
        have hfinished : p.thread w' = .finished := beq_iff_eq.mp henabled
        simp only [Pod.exec, Pod.setThread, Function.update_self]
        exact (hfinished ▸ h.workers w').join ht
      · simp only [Pod.exec, Pod.setThread, Function.update_of_ne hw]
        refine (h.workers w').keep ht ?_ ControlPhase.noConfusion ?_
        · exact iff_of_false (by rintro (h | h) <;> cases h) (by rintro (h | h) <;> cases h)
        · rintro ⟨_, _, heq, hmem⟩
          cases heq
          exact ⟨w :: joined, some w, rfl, List.mem_cons_of_mem _ hmem⟩

end control

/-- Each worker has been started, nothing has been started twice. -/
structure LaunchedOnce {podIp : String} (reqs : List (PodRequest podIp)) : Prop where
  worker : ∀ w, ∃ t : ℕ, reqs[t]?.bind PodRequest.worker = some w
  once : ∀ (w : Worker) (t u : ℕ), reqs[t]?.bind PodRequest.worker = some w →
    reqs[u]?.bind PodRequest.worker = some w → t = u
  shutdown : ∀ t u : ℕ, reqs[t]? = some .gracefulShutdown → reqs[u]? = some .gracefulShutdown → t = u

def CutOff {σ Op : Type} {Res : Op → Type} {podIp : String} (w : Worker)
    (c : Config σ (PodRequest podIp) Op Res PodResult) : Prop :=
  ∃ (t : ℕ) (req : PodRequest podIp), c.pool[t]? = some ⟨req, .ret .cutOff⟩ ∧ req.worker = some w

namespace AtomicPod
open ControlPhase Protocol
variable {sim : Simulator} {cfg : ServiceConfig} {scanPage : ScanPolicy}
  {server : ServerState sim Store}
  {c : Config (Pod sim) (PodRequest cfg.podIp) AtomicPodOp AtomicPodOp.Res PodResult}

theorem controlled_of_viewReachable {v : View (Pod sim) (PodRequest cfg.podIp) AtomicPodOp
      AtomicPodOp.Res ControlPhase}
    (h : (controlProtocol cfg.podIp).ViewReachable (system sim cfg scanPage) (fun _ => True)
      (fun _ _ _ _ => True) (Pod.started server) v) : Controlled v.shared v.phases := by
  induction h with
  | init => exact .init server
  | start _ hfresh _ ih => exact ih.start hfresh _
  | @op v t req φ φ' op _ ht henabled _ hnext ih =>
    cases op with
    | room op =>
      cases hnext
      exact ih.same rfl rfl rfl ht
    | pod op => exact ih.step scanPage ht (step_of_next hnext) henabled

theorem controlled_of_reachable
    (h : (system sim cfg scanPage).Reachable (fun _ _ => True) (Pod.started server) c) :
    (controlProtocol cfg.podIp).Tracks Anything c ∧
      Controlled c.shared ((controlProtocol cfg.podIp).view c).phases := by
  have hguarded : (system sim cfg scanPage).Reachable
      ((controlProtocol cfg.podIp).guarded (fun _ => True) fun _ _ _ _ => True)
      (Pod.started server) c := by
    refine h.mono fun c a _ => ?_
    cases a with
    | start req => trivial
    | run t => exact fun _ _ _ => trivial
  have hcode : ∀ req, True → (controlProtocol cfg.podIp).Follows Anything req
      ((controlProtocol cfg.podIp).start req) ((system sim cfg scanPage).code req) :=
    fun req _ => (code_ends cfg req).follows fun a ψ hψ => ⟨a, hψ⟩
  obtain ⟨htracks, hview⟩ := tracks_of_reachable (fun _ _ => trivial) hcode hguarded
  exact ⟨htracks, controlled_of_viewReachable hview⟩

theorem phase_of_returned
    (h : (system sim cfg scanPage).Reachable (fun _ _ => True) (Pod.started server) c) {t : ℕ}
    {req : PodRequest cfg.podIp} {result : PodResult} (hpool : c.pool[t]? = some ⟨req, .ret result⟩) :
    ∃ ψ, ((controlProtocol cfg.podIp).view c).phases t = some (req, ψ) ∧ ψ.ReturnedIn result := by
  have hpath := (System.path_of_reachable h).2 t _ hpool
  obtain ⟨ψ, hψ, hreturned⟩ := (code_ends cfg req).along hpath fun _ _ => trivial
  refine ⟨ψ, ?_, hreturned⟩
  have hphase : (controlProtocol cfg.podIp).phase req t c.log = some ψ :=
    (phase_eq_along t c.log).trans hψ
  simp only [view, hpool, Option.bind_some, hphase, Option.map_some]

/-- What a thread waits for, where it waits. -/
inductive WaitsFor (p : Pod sim) : ControlPhase → PodOp → Prop
  | server : p.accepting = false → WaitsFor p .calling .accept
  | scheduler {w : Worker} : p.thread w ≠ .created → WaitsFor p (.created w) (.enter w)
  | worker {w : Worker} {joined : List Worker} : w ∉ joined → p.thread w ≠ .finished →
      WaitsFor p (.stopping joined (some w)) (.join w)
  | handlers {joined : List Worker} {told : Option Worker} : p.inFlight ≠ 0 →
      WaitsFor p (.stopping joined told) .awaitHandlers

theorem waitsFor_of_next {p : Pod sim} {φ φ' : ControlPhase} {op : PodOp}
    (hnext : φ.next op = some φ') (hblocked : Pod.enabled op p = false) : WaitsFor p φ op := by
  cases step_of_next hnext with
  | keep _ hop =>
    cases op with
    | enter _ | join _ | accept | awaitHandlers => cases hop .free
    | _ => cases hblocked
  | awaitHandlers joined told => exact .handlers (beq_eq_false_iff_ne.mp hblocked)
  | accept => exact .server hblocked
  | respond | leave _ | clear _ _ _ => cases hblocked
  | enter w => exact .scheduler (beq_eq_false_iff_ne.mp hblocked)
  | join hw => exact .worker hw (beq_eq_false_iff_ne.mp hblocked)

structure Halted (server : ServerState sim Store) (scanPage : ScanPolicy)
    (c : Config (Pod sim) (PodRequest cfg.podIp) AtomicPodOp AtomicPodOp.Res PodResult) : Prop where
  reachable : (system sim cfg scanPage).Reachable (fun _ _ => True) (Pod.started server) c
  launched : LaunchedOnce (c.pool.map Thread.req)
  stuck : (system sim cfg scanPage).Stuck c

namespace Halted
variable {t : ℕ} {req : PodRequest cfg.podIp} {ψ : ControlPhase} {w : Worker}

theorem controlled (h : Halted server scanPage c) :
    Controlled c.shared ((controlProtocol cfg.podIp).view c).phases :=
  (controlled_of_reachable h.reachable).2

theorem waits (h : Halted server scanPage c) {op : AtomicPodOp}
    {next : op.Res → Prog AtomicPodOp AtomicPodOp.Res PodResult}
    (hpool : c.pool[t]? = some ⟨req, .call op next⟩) :
    ∃ o ψ, op = .pod o ∧ ((controlProtocol cfg.podIp).view c).phases t = some (req, ψ) ∧
      WaitsFor c.shared ψ o := by
  have hblocked : enabled op c.shared = false := by
    rw [Bool.eq_false_iff]
    intro henabled
    have hfire := System.fire_of_enabled (S := system sim cfg scanPage) hpool henabled
    rw [h.stuck t] at hfire
    cases hfire
  obtain ⟨ψ, hψ, hfollows⟩ := (controlled_of_reachable h.reachable).1.exists_phase hpool
  obtain ⟨φ', hnext, -⟩ := hfollows (exec scanPage op c.shared).1 trivial
  cases op with
  | room op => cases hblocked
  | pod op => exact ⟨op, ψ, rfl, hψ, waitsFor_of_next hnext hblocked⟩

theorem waits_or_returned (h : Halted server scanPage c)
    (ht : ((controlProtocol cfg.podIp).view c).phases t = some (req, ψ)) :
    (∃ op, WaitsFor c.shared ψ op) ∨
      ∃ result, c.pool[t]? = some ⟨req, .ret result⟩ ∧ ψ.ReturnedIn result := by
  obtain ⟨p, hpool⟩ := pool_of_phases ht
  cases p with
  | ret result =>
    obtain ⟨ψ', hψ', hreturned⟩ := phase_of_returned h.reachable hpool
    rw [ht] at hψ'
    cases hψ'
    exact Or.inr ⟨result, hpool, hreturned⟩
  | call op next =>
    obtain ⟨o, ψ', -, hψ', hwaits⟩ := h.waits hpool
    rw [ht] at hψ'
    cases hψ'
    exact Or.inl ⟨o, hwaits⟩

theorem request_at (ht : ((controlProtocol cfg.podIp).view c).phases t = some (req, ψ)) :
    (c.pool.map Thread.req)[t]? = some req := by
  obtain ⟨p, hpool⟩ := pool_of_phases ht
  rw [List.getElem?_map, hpool]
  rfl

theorem inFlight_eq (h : Halted server scanPage c) : c.shared.inFlight = 0 := by
  have hnone : threads ((controlProtocol cfg.podIp).view c).phases (fun _ φ => φ = .inFlight) = ∅ := by
    refine Set.eq_empty_iff_forall_notMem.mpr ?_
    rintro t ⟨req, ψ, ht, rfl⟩
    rcases h.waits_or_returned ht with ⟨op, hwaits⟩ | ⟨result, -, hreturned⟩
    · cases hwaits
    · exact hreturned
  have hcard := h.controlled.inFlight.card
  rw [hnone, Set.ncard_empty] at hcard
  exact hcard.symm

theorem cutOff_of_looping (h : Halted server scanPage c)
    (ht : ((controlProtocol cfg.podIp).view c).phases t = some (req, .looping w)) : CutOff w c := by
  rcases h.waits_or_returned ht with ⟨op, hwaits⟩ | ⟨result, hpool, hreturned⟩
  · cases hwaits
  · obtain rfl : result = .cutOff := hreturned
    exact ⟨t, req, hpool, h.controlled.owned t req _ ht⟩

theorem not_created (h : Halted server scanPage c) :
    ((controlProtocol cfg.podIp).view c).phases t ≠ some (req, .created w) := by
  intro ht
  rcases h.waits_or_returned ht with ⟨op, hwaits⟩ | ⟨result, -, hreturned⟩
  · cases hwaits with
    | scheduler hstarted =>
      obtain ⟨u, req', ψ, hu, hentered⟩ := ((h.controlled.workers w).entered).mp hstarted
      have howned : req.worker = some w := h.controlled.owned t req _ ht
      have howned' : req'.worker = some w := by
        have := h.controlled.owned u req' ψ hu
        rcases hentered with rfl | rfl <;> exact this
      obtain rfl : t = u := h.launched.once w t u (by rw [request_at ht]; exact howned)
        (by rw [request_at hu]; exact howned')
      rw [ht] at hu
      cases hu
      rcases hentered with h | h <;> cases h
  · exact hreturned

theorem finished_or_joined (h : Halted server scanPage c) (hcut : ¬ CutOff w c) :
    c.shared.thread w = .finished ∨ c.shared.thread w = .joined := by
  obtain ⟨t, hlaunched⟩ := h.launched.worker w
  obtain ⟨req, hreq, hw⟩ := Option.bind_eq_some_iff.mp hlaunched
  rw [List.getElem?_map, Option.map_eq_some_iff] at hreq
  obtain ⟨⟨req', p⟩, hpool, heq⟩ := hreq
  obtain rfl : req' = req := heq
  obtain ⟨ψ, hψ, -⟩ := (controlled_of_reachable h.reachable).1.exists_phase hpool
  have howned : ψ.OwnedBy req' := h.controlled.owned t req' ψ hψ
  have hworker : ∀ w', req'.worker = some w' → w' = w := by
    intro w' hw'
    rw [hw] at hw'
    cases hw'
    rfl
  obtain rfl : ψ = .left w := by
    cases ψ with
    | created w' => exact absurd hψ h.not_created
    | looping w' =>
      obtain rfl := hworker w' howned
      exact absurd (h.cutOff_of_looping hψ) hcut
    | left w' =>
      obtain rfl := hworker w' howned
      rfl
    | stopping joined told =>
      obtain rfl : req' = .gracefulShutdown := howned
      cases hw
    | _ =>
      obtain ⟨_, rfl⟩ := howned
      cases hw
  have hentered : c.shared.thread w ≠ .created :=
    (h.controlled.workers w).entered.mpr ⟨t, req', _, hψ, Or.inr rfl⟩
  have hrunning : c.shared.thread w ≠ .running := by
    intro hrunning
    obtain ⟨u, req₁, ψ, hu, rfl⟩ := (h.controlled.workers w).running hrunning
    exact hcut (h.cutOff_of_looping hu)
  cases hthread : c.shared.thread w with
  | created => exact absurd hthread hentered
  | running => exact absurd hthread hrunning
  | finished => exact Or.inl rfl
  | joined => exact Or.inr rfl

theorem cutOff_of_join (h : Halted server scanPage c) {joined : List Worker}
    (ht : ((controlProtocol cfg.podIp).view c).phases t = some (req, .stopping joined (some w)))
    (hw : w ∉ joined) (hthread : c.shared.thread w ≠ .finished) : CutOff w c := by
  by_contra hcut
  have hjoined := (h.finished_or_joined hcut).resolve_left hthread
  obtain ⟨u, req', ψ, hu, joined', told', rfl, hmem⟩ := (h.controlled.workers w).joined hjoined
  obtain rfl : req = .gracefulShutdown := h.controlled.owned t req _ ht
  obtain rfl : req' = .gracefulShutdown := h.controlled.owned u req' _ hu
  obtain rfl := h.launched.shutdown t u (request_at ht) (request_at hu)
  rw [ht] at hu
  cases hu
  exact hw hmem

/-- What still waits is a call that the server does not accept any more, or the shutdown,
for a worker that has been told to stop and has been cut off. -/
theorem waits_cases (h : Halted server scanPage c) {op : AtomicPodOp}
    {next : op.Res → Prog AtomicPodOp AtomicPodOp.Res PodResult}
    (hpool : c.pool[t]? = some ⟨req, .call op next⟩) :
    (op = .pod .accept ∧ ∃ request, req = .rpc request) ∨
      ∃ w, op = .pod (.join w) ∧ req = .gracefulShutdown ∧ c.shared.running w = false ∧
        CutOff w c := by
  obtain ⟨o, ψ, rfl, hψ, hwaits⟩ := h.waits hpool
  have howned := h.controlled.owned t req ψ hψ
  cases hwaits with
  | server _ => exact Or.inl ⟨rfl, howned⟩
  | scheduler _ => exact absurd hψ h.not_created
  | @worker w joined hw hthread =>
    have hrunning := h.controlled.told t req _ hψ w ⟨joined, rfl⟩
    exact Or.inr ⟨w, rfl, howned, hrunning, h.cutOff_of_join hψ hw hthread⟩
  | handlers hinFlight => exact absurd h.inFlight_eq hinFlight

theorem worker_of_cutOff (h : Halted server scanPage c)
    (hpool : c.pool[t]? = some ⟨req, .ret .cutOff⟩) : ∃ w, req.worker = some w := by
  obtain ⟨ψ, hψ, hreturned⟩ := phase_of_returned h.reachable hpool
  cases ψ with
  | looping w => exact ⟨w, h.controlled.owned t req _ hψ⟩
  | calling | inFlight | created _ => exact hreturned.elim
  | _ => exact absurd rfl hreturned

end Halted

end AtomicPod

/-! Both locks are free where no thread can move, so what is said of the atomic pod is
said of the pod with its locks. -/

namespace LockedPod
open Discipline
variable {sim : Simulator} {cfg : ServiceConfig} {scanPage : ScanPolicy}

theorem waitsOnlyOutside :
    WaitsOnlyOutside podDiscipline (system sim cfg scanPage) LockStage.own where
  possible := refines_atomicPod.possible
  idle := rfl
  inside ψ op r φ' x s hψ hstep := by
    cases hstep with
    | @room _ _ op r _ hstep => exact RoomLock.waitsOnlyOutside.inside ψ op r φ' _ s.rooms hψ hstep
    | pod r _ => exact absurd rfl hψ

inductive SameInPod : StepOp → AtomicPodOp → Prop
  | pod (op : PodOp) : SameInPod (.pod op) (.pod op)

theorem exists_halted_atomicPod {maxRooms : ℕ} {redis : Store}
    {c : Config (LockedPod sim) (PodRequest cfg.podIp) StepOp StepOp.Res PodResult}
    (h : (system sim cfg scanPage).Reachable (fun _ _ => True)
      (started (GameService.initState maxRooms redis)) c)
    (hstuck : (system sim cfg scanPage).Stuck c) :
    ∃ d, (AtomicPod.system sim cfg scanPage).Reachable (fun _ _ => True)
        (Pod.started (GameService.initState maxRooms redis)) d ∧
      (AtomicPod.system sim cfg scanPage).Stuck d ∧ StandAlike SameInPod c d ∧
      d.shared.running = c.shared.pod.running := by
  obtain ⟨d, φ, hreach, hmatches, hI⟩ := refines_atomicPod.exists_matches Implements.init h
  have hrunning : d.shared.running = c.shared.pod.running := by
    rw [hI.rest]
    rfl
  suffices hhalted : (AtomicPod.system sim cfg scanPage).Stuck d ∧ StandAlike SameInPod c d from
    ⟨d, hreach, hhalted.1, hhalted.2, hrunning⟩
  refine waitsOnlyOutside.stuck hmatches hI.rooms.held ?_ ?_ hstuck
  · rintro ψ _ _ r ψ' x ⟨op⟩ hstep
    cases hstep with
    | pod r _ => exact ⟨r, rfl⟩
  · intro hwriter hreaders op hdisabled
    cases op with
    | room op =>
      have henabled : RoomLock.enabled op c.shared.rooms = true := by
        cases op <;> simp [RoomLock.enabled, hwriter, hreaders]
      rw [show RoomLock.enabled op c.shared.rooms = false from hdisabled] at henabled
      cases henabled
    | pod op =>
      refine ⟨.pod op, .pod op, ?_⟩
      have hpod : Pod.enabled op c.shared.pod = false := hdisabled
      rwa [hI.rest, Pod.enabled_withRooms] at hpod

end LockedPod

namespace SteppedPod
open Discipline
variable {sim : Simulator} {cfg : ServiceConfig} {scanPage : ScanPolicy}

theorem waitsOnlyOutside :
    WaitsOnlyOutside (discipline sim) (system sim cfg scanPage) EngineStage.own where
  possible := (refines_lockedPod cfg scanPage).possible
  idle := rfl
  inside ψ op r φ' x s hψ hstep := by
    cases hstep with
    | @silent _ _ op r hstep =>
      exact EngineLock.waitsOnlyOutside.inside ψ op r φ' _ s.engine hψ hstep
    | @commit _ _ op r _ _ _ _ _ hstep =>
      exact EngineLock.waitsOnlyOutside.inside ψ op r φ' _ s.engine hψ hstep
    | step r _ => exact absurd rfl hψ

inductive SameInLockedPod : SteppedOp sim → StepOp → Prop
  | step (op : StepOp) : SameInLockedPod (.step op) op

theorem exists_halted_lockedPod {maxRooms : ℕ} {redis : Store}
    {c : Config (SteppedPod sim) (PodRequest cfg.podIp) (SteppedOp sim) SteppedOp.Res PodResult}
    (h : (system sim cfg scanPage).Reachable (fun _ _ => True)
      (started (GameService.initState maxRooms redis)) c)
    (hstuck : (system sim cfg scanPage).Stuck c) :
    ∃ d, (LockedPod.system sim cfg scanPage).Reachable (fun _ _ => True)
        (LockedPod.started (GameService.initState maxRooms redis)) d ∧
      (LockedPod.system sim cfg scanPage).Stuck d ∧ StandAlike SameInLockedPod c d ∧
      d.shared = c.shared.locked := by
  obtain ⟨d, φ, hreach, hmatches, hI⟩ :=
    (refines_lockedPod cfg scanPage).exists_matches (Implements.init maxRooms redis) h
  suffices hhalted : (LockedPod.system sim cfg scanPage).Stuck d ∧ StandAlike SameInLockedPod c d
    from ⟨d, hreach, hhalted.1, hhalted.2, hI.locked.symm⟩
  refine waitsOnlyOutside.stuck hmatches hI.engine.held ?_ ?_ hstuck
  · rintro ψ _ _ r ψ' x ⟨op⟩ hstep
    cases hstep with
    | step r _ => exact ⟨r, rfl⟩
  · intro hwriter hreaders op hdisabled
    cases op with
    | engine op =>
      have henabled : EngineLock.enabled op c.shared.engine = true := by
        cases op <;> simp [EngineLock.enabled, hwriter, hreaders]
      rw [show EngineLock.enabled op c.shared.engine = false from hdisabled] at henabled
      cases henabled
    | step op =>
      refine ⟨op, .step op, ?_⟩
      rw [← hI.locked]
      exact hdisabled

/-- The threads that do not move any more: one has returned, its loop has used all it was
given, Shutdown has turned its call away, or it waits for such a loop, whose flag is
cleared. -/
inductive AtRest {podIp : String}
    (c : Config (SteppedPod sim) (PodRequest podIp) (SteppedOp sim) SteppedOp.Res PodResult) (t : ℕ) :
    Thread (PodRequest podIp) (SteppedOp sim) SteppedOp.Res PodResult → Prop
  | returned {req : PodRequest podIp} {result : PodResult} : result ≠ .cutOff →
      AtRest c t ⟨req, .ret result⟩
  | cutOff {req : PodRequest podIp} {w : Worker} : req.worker = some w →
      req.UsedUp ((history t c.log).filterMap (SteppedOp.glance w)) → AtRest c t ⟨req, .ret .cutOff⟩
  | turnedAway {request : Request} {next : Unit → Steps sim PodResult} :
      c.shared.locked.pod.accepting = false →
      AtRest c t ⟨.rpc request, .call (.step (.pod .accept)) next⟩
  | waiting {w : Worker} {next : Unit → Steps sim PodResult} :
      c.shared.locked.pod.running w = false → CutOff w c →
      AtRest c t ⟨.gracefulShutdown, .call (.step (.pod (.join w))) next⟩

theorem atRest_of_stuck {maxRooms : ℕ} {redis : Store}
    {c : Config (SteppedPod sim) (PodRequest cfg.podIp) (SteppedOp sim) SteppedOp.Res PodResult}
    (h : (system sim cfg scanPage).Reachable (fun _ _ => True)
      (started (GameService.initState maxRooms redis)) c)
    (hlaunched : LaunchedOnce (c.pool.map Thread.req)) (hstuck : (system sim cfg scanPage).Stuck c)
    {t : ℕ} {th : Thread (PodRequest cfg.podIp) (SteppedOp sim) SteppedOp.Res PodResult}
    (hpool : c.pool[t]? = some th) : AtRest c t th := by
  obtain ⟨d, hd, hdstuck, hcd, hdshared⟩ := exists_halted_lockedPod h hstuck
  obtain ⟨e, he, hestuck, hde, herunning⟩ := LockedPod.exists_halted_atomicPod hd hdstuck
  have halike := hcd.trans hde
  have hhalted : AtomicPod.Halted (GameService.initState maxRooms redis) scanPage e :=
    ⟨he, by rwa [← halike.requests_eq], hestuck⟩
  obtain ⟨req, p⟩ := th
  obtain ⟨q, hepool, hsame⟩ := halike.alike t req p hpool
  cases hsame with
  | ret result =>
    by_cases hcut : result = .cutOff
    · subst hcut
      obtain ⟨w, hw⟩ := hhalted.worker_of_cutOff hepool
      exact .cutOff hw (usedUp_of_cutOff h hw hpool)
    · exact .returned hcut
  | @call op next o onext hsame =>
    rcases hhalted.waits_cases hepool with ⟨rfl, request, rfl⟩ | ⟨w, rfl, rfl, hrunning, hcut⟩
    · obtain ⟨_, ⟨op⟩, ⟨⟩⟩ := hsame
      refine .turnedAway ?_
      rw [Bool.eq_false_iff]
      intro haccepting
      have hfire := System.fire_of_enabled (S := system sim cfg scanPage) hpool haccepting
      rw [hstuck t] at hfire
      cases hfire
    · obtain ⟨_, ⟨op⟩, ⟨⟩⟩ := hsame
      obtain ⟨u, req, hu, hw⟩ := hcut
      refine .waiting ?_ ⟨u, req, halike.returned hu, hw⟩
      rw [herunning, hdshared] at hrunning
      exact hrunning

end SteppedPod

namespace Sample

/-- A creation holds the lock of BattleEngine and the pod begins to shut down, before
its workers have been scheduled at all. -/
def shutDownInsideSession : List (Action (PodRequest podA.address)) :=
  launch (.heartbeatThread 2) ++ launch (.metricsThread true [.nothing]) ++
    launch (.rpc (create "a")) ++ turns 2 17 ++ launch .gracefulShutdown ++ turns 3 3

def creationThenShutdown : List (Action (PodRequest podA.address)) :=
  turns 2 10 ++ turns 3 20 ++ turns 0 3 ++ turns 3 3 ++ turns 1 3 ++ turns 3 5

theorem launchedOnce : LaunchedOnce (shutDownInsideSession.flatMap Action.requests) where
  worker w := by
    cases w with
    | heartbeat => exact ⟨0, rfl⟩
    | metrics => exact ⟨1, rfl⟩
  once w t u ht hu := by
    have hplace : ∀ v : ℕ, (shutDownInsideSession.flatMap Action.requests)[v]?.bind
        PodRequest.worker = some w → v = if w = .heartbeat then 0 else 1 := by
      intro v hv
      rcases v with _ | _ | _ | _ | v <;> cases hv <;> rfl
    rw [hplace t ht, hplace u hu]
  shutdown t u ht hu := by
    have hplace : ∀ v : ℕ, (shutDownInsideSession.flatMap Action.requests)[v]? =
        some .gracefulShutdown → v = 3 := by
      intro v hv
      rcases v with _ | _ | _ | _ | v <;> cases hv
      rfl
    rw [hplace t ht, hplace u hu]

end Sample

end PokemonServer
