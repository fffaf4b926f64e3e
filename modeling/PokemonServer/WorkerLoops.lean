import PokemonServer.SteppedPod

/-!
# Where a worker's loop is cut off

The loops of the heartbeat and the metrics thread test their flag in every turn, the
metrics loop twice, and a SCAN loop goes on as long as Redis has pages. A thread whose loop
is cut off has used all its turns, or all the pages of a scrape, and has found its flag set
at every test.
-/

namespace PokemonServer
open Interleaving RedisClient

def PodRequest.worker {podIp : String} : PodRequest podIp → Option Worker
  | .heartbeatThread _ => some .heartbeat
  | .metricsThread _ _ => some .metrics
  | _ => none

/-- What a worker sees of its surroundings: its flag, and the pages of a SCAN. -/
inductive Glance where
  | flag (isSet : Bool)
  | page

def Glance.flag? : Glance → Option Bool
  | .flag isSet => some isSet
  | .page => none

def Glance.isPage : Glance → Bool
  | .flag _ => false
  | .page => true

def flagsRead (gs : List Glance) : List Bool := gs.filterMap Glance.flag?
def pagesRead (gs : List Glance) : ℕ := gs.countP Glance.isPage

def RedisOp.glance : Exchange RedisOp RedisOp.Res → Option Glance
  | ⟨.command (.scan _ _ _), _⟩ => some .page
  | _ => none

def ServerOp.glance : Exchange ServerOp ServerOp.Res → Option Glance
  | ⟨.redis op, r⟩ => RedisOp.glance ⟨op, r⟩
  | _ => none

def PodOp.glance (w : Worker) : Exchange PodOp PodOp.Res → Option Glance
  | ⟨.server op, r⟩ => ServerOp.glance ⟨op, r⟩
  | ⟨.loadRunning w', isSet⟩ => if w' = w then some (.flag isSet) else none
  | _ => none

def StepOp.glance (w : Worker) : Exchange StepOp StepOp.Res → Option Glance
  | ⟨.pod op, r⟩ => PodOp.glance w ⟨op, r⟩
  | ⟨.room _, _⟩ => none

def SteppedOp.glance {sim : Simulator} (w : Worker) :
    Exchange (SteppedOp sim) SteppedOp.Res → Option Glance
  | ⟨.step op, r⟩ => StepOp.glance w ⟨op, r⟩
  | ⟨.engine _, _⟩ => none

/-- The metrics loop has found its flag set in as many turns as it was given, or up to a
scrape that has since read all its pages. -/
def MetricsUsedUp (turns : List MetricsTurn) (gs : List Glance) : Prop :=
  ∃ k, flagsRead gs = List.replicate (2 * k) true ∧ (k = turns.length ∨
    ∃ i fuel since, k = i + 1 ∧ turns[i]? = some (.scrape fuel) ∧
      since <:+ gs ∧ flagsRead since = [] ∧ fuel ≤ pagesRead since)

/-- The thread has used all that its loop was given, and found its flag set throughout. -/
def PodRequest.UsedUp {podIp : String} : PodRequest podIp → List Glance → Prop
  | .heartbeatThread turns, gs => flagsRead gs = List.replicate turns true
  | .metricsThread listening turns, gs => listening = true ∧ MetricsUsedUp turns gs
  | _, _ => False

section paths
variable {xs : List (Exchange RedisOp RedisOp.Res)} {ys : List (Exchange ServerOp ServerOp.Res)}
  {zs : List (Exchange PodOp PodOp.Res)} {w : Worker} {cfg : ServiceConfig} {fuel : ℕ}

theorem pagesRead_append (gs hs : List Glance) :
    pagesRead (gs ++ hs) = pagesRead gs + pagesRead hs :=
  List.countP_append

theorem flagsRead_append (gs hs : List Glance) :
    flagsRead (gs ++ hs) = flagsRead gs ++ flagsRead hs :=
  List.filterMap_append

theorem le_pages_of_scanRooms {cursor : ℕ} {acc : List (String × String)}
    (h : Path (scanRooms collectSnapshot fuel cursor acc) xs (.ret none)) :
    fuel ≤ pagesRead (xs.filterMap RedisOp.glance) := by
  induction fuel generalizing cursor acc xs with
  | zero => exact Nat.zero_le _
  | succ fuel ih =>
    obtain ⟨got, ys, rfl, hgot⟩ := Path.call_ret_iff.mp h
    have hpage : pagesRead ((⟨.command (.scan cursor "pokemon:room:*" 128), got⟩ ::
        ys : List (Exchange RedisOp RedisOp.Res)).filterMap RedisOp.glance) =
        pagesRead (ys.filterMap RedisOp.glance) + 1 := List.countP_cons_of_pos rfl
    rw [hpage, Nat.add_le_add_iff_right]
    have hstop : ¬ Path (.ret (some acc) : Client _) ys (.ret none) := by
      intro hret
      cases (Path.ret_iff.mp hret).2
    match got with
    | some (.array (cursorReply :: keysReply :: _)) =>
      have htail : ∀ acc' gs, Path (if strtoull cursorReply.str ≠ 0 then
            scanRooms collectSnapshot fuel (strtoull cursorReply.str) acc' else return some acc') gs
            (.ret none) → fuel ≤ pagesRead (gs.filterMap RedisOp.glance) := by
        intro acc' gs hrest
        split at hrest
        · exact ih hrest
        · cases (Path.ret_iff.mp hrest).2
      cases keysReply with
      | array keys =>
        have hloop : Path (visitKeys collectSnapshot keys acc >>= fun acc' =>
            if strtoull cursorReply.str ≠ 0 then
              scanRooms collectSnapshot fuel (strtoull cursorReply.str) acc' else return some acc') ys
            (.ret none) := hgot
        obtain ⟨acc', fs, gs, rfl, -, hrest⟩ := Path.bind_ret_iff.mp hloop
        have hle := htail acc' gs hrest
        rw [List.filterMap_append, pagesRead_append]
        omega
      | status _ | error _ | integer _ | string _ | nil => exact htail acc ys hgot
    | none | some (.status _) | some (.error _) | some (.integer _) | some .nil
    | some (.string _) | some (.array []) | some (.array [_]) => exact absurd hgot hstop

theorem le_pages_of_collect
    (h : Path (GameService.collectMetricsSnapshot cfg fuel) ys (.ret none)) :
    fuel ≤ pagesRead (ys.filterMap ServerOp.glance) := by
  obtain ⟨_, ys₁, rfl, h₁⟩ := Path.call_ret_iff.mp h
  obtain ⟨_, ys₂, rfl, h₂⟩ := Path.call_ret_iff.mp h₁
  obtain ⟨_, fs, gs, rfl, -, h₃⟩ := (Path.bind_ret_iff
    (p := GameService.redis (GameService.refreshHeartbeat cfg.podIp 30))).mp h₂
  obtain ⟨connected, gs₁, rfl, h₄⟩ := Path.call_ret_iff.mp h₃
  cases connected with
  | false => cases (Path.ret_iff.mp h₄).2
  | true =>
    obtain ⟨nodes, fs₁, gs₂, rfl, -, h₅⟩ :=
      (Path.bind_ret_iff (p := GameService.redis getAllNodes)).mp h₄
    obtain ⟨snapshots, fs₂, gs₃, rfl, hscan, h₆⟩ :=
      (Path.bind_ret_iff (p := GameService.redis (getAllRoomSnapshots fuel))).mp h₅
    cases snapshots with
    | some pairs => cases (Path.ret_iff.mp h₆).2
    | none =>
      obtain ⟨xs, hxs, hexpands⟩ := Path.of_expand hscan
      have hsame : fs₂.filterMap ServerOp.glance = xs.filterMap RedisOp.glance :=
        Expands.filterMap_eq_of_op (f := fun o => .op (ServerOp.redis o))
          (fun o => ⟨ServerOp.redis o, id, rfl, fun _ => rfl⟩) hexpands
      obtain ⟨connected, xs₁, rfl, hrooms⟩ := Path.call_ret_iff.mp hxs
      cases connected with
      | false => cases (Path.ret_iff.mp hrooms).2
      | true =>
        have hle := le_pages_of_scanRooms hrooms
        have hpages : pagesRead (fs₂.filterMap ServerOp.glance) =
            pagesRead (xs₁.filterMap RedisOp.glance) := by
          rw [hsame]
          rfl
        simp only [List.filterMap_cons, List.filterMap_append, pagesRead_append, ServerOp.glance,
          RedisOp.glance]
        omega

def CallsServer (o : PodOp) : Prop := ∃ op, o = .server op

theorem handler_callsServer {α : Type} (p : GameService.Handler α) :
    (Pod.handler p).Issues CallsServer := by
  refine Prog.Issues.expand_all (fun o => ?_) p
  exact ⟨⟨o, rfl⟩, fun _ => trivial⟩

theorem redis_callsServer {α : Type} (p : Client α) : (Pod.redis p).Issues CallsServer := by
  refine Prog.Issues.expand_all (fun o => ?_) p
  exact ⟨⟨.redis o, rfl⟩, fun _ => trivial⟩

theorem flags_of_callsServer {α : Type} {p q : Pod.Routine α} (hp : p.Issues CallsServer)
    (h : Path p zs q) : flagsRead (zs.filterMap (PodOp.glance w)) = [] := by
  have hserver := h.issued hp
  rw [flagsRead, List.filterMap_filterMap, List.filterMap_eq_nil_iff]
  rintro ⟨o, r⟩ hx
  obtain ⟨op, rfl⟩ := hserver _ hx
  cases op with
  | redis op =>
    cases op with
    | isConnected => rfl
    | command cmd => cases cmd <;> rfl
  | _ => rfl

theorem flagsRead_load (isSet : Bool) (zs : List (Exchange PodOp PodOp.Res)) :
    flagsRead ((⟨.loadRunning w, isSet⟩ :: zs).filterMap (PodOp.glance w)) =
      isSet :: flagsRead (zs.filterMap (PodOp.glance w)) := by
  have hglance : PodOp.glance w ⟨.loadRunning w, isSet⟩ = some (.flag isSet) := if_pos rfl
  rw [List.filterMap_cons_some hglance]
  rfl

theorem heartbeatLoop_cutOff {podIp : String} {turns : ℕ}
    (h : Path (Pod.heartbeatLoop podIp turns) zs (.ret .cutOff)) :
    flagsRead (zs.filterMap (PodOp.glance .heartbeat)) = List.replicate turns true := by
  induction turns generalizing zs with
  | zero =>
    obtain ⟨rfl, -⟩ := Path.ret_iff.mp h
    rfl
  | succ turns ih =>
    obtain ⟨running, zs₁, rfl, h₁⟩ := Path.call_ret_iff.mp h
    cases running with
    | false =>
      obtain ⟨_, zs₂, rfl, h₂⟩ := Path.call_ret_iff.mp h₁
      cases (Path.ret_iff.mp h₂).2
    | true =>
      obtain ⟨_, zs₂, rfl, h₂⟩ := Path.call_ret_iff.mp h₁
      obtain ⟨_, fs, gs, rfl, hredis, hrest⟩ := (Path.bind_ret_iff
        (p := Pod.redis (GameService.refreshHeartbeat podIp 300))).mp h₂
      have hfs := flags_of_callsServer (w := .heartbeat) (redis_callsServer _) hredis
      rw [flagsRead_load, List.filterMap_cons_none rfl, List.filterMap_append, flagsRead_append, hfs,
        List.nil_append, ih hrest, List.replicate_succ]

theorem flagsRead_turn (u : Unit) (zs : List (Exchange PodOp PodOp.Res)) :
    flagsRead ((⟨.loadRunning .metrics, true⟩ :: ⟨.sleep, u⟩ :: ⟨.loadRunning .metrics, true⟩ ::
        zs : List (Exchange PodOp PodOp.Res)).filterMap (PodOp.glance .metrics)) =
      true :: true :: flagsRead (zs.filterMap (PodOp.glance .metrics)) := by
  rw [flagsRead_load, List.filterMap_cons_none rfl, flagsRead_load]

theorem MetricsUsedUp.turn {turns : List MetricsTurn} {gs gs' : List Glance}
    (h : MetricsUsedUp turns gs) (turn : MetricsTurn)
    (hflags : flagsRead gs' = true :: true :: flagsRead gs) (hlater : gs <:+ gs') :
    MetricsUsedUp (turn :: turns) gs' := by
  obtain ⟨k, hk, hused⟩ := h
  refine ⟨k + 1, ?_, ?_⟩
  · rw [hflags, hk]
    rfl
  · rcases hused with rfl | ⟨i, fuel, since, rfl, hturn, hsince, hnone, hfuel⟩
    · exact Or.inl rfl
    · exact Or.inr ⟨i + 1, fuel, since, rfl, hturn, hsince.trans hlater, hnone, hfuel⟩

theorem metricsLoop_cutOff {turns : List MetricsTurn}
    (h : Path (Pod.metricsLoop cfg turns) zs (.ret .cutOff)) :
    MetricsUsedUp turns (zs.filterMap (PodOp.glance .metrics)) := by
  induction turns generalizing zs with
  | nil =>
    obtain ⟨rfl, -⟩ := Path.ret_iff.mp h
    exact ⟨0, rfl, Or.inl rfl⟩
  | cons turn turns ih =>
    obtain ⟨running, zs₁, rfl, h₁⟩ := Path.call_ret_iff.mp h
    cases running with
    | false =>
      obtain ⟨_, zs₂, rfl, h₂⟩ := Path.call_ret_iff.mp h₁
      cases (Path.ret_iff.mp h₂).2
    | true =>
    obtain ⟨u, zs₂, rfl, h₂⟩ := Path.call_ret_iff.mp h₁
    obtain ⟨running, zs₃, rfl, h₃⟩ := Path.call_ret_iff.mp h₂
    cases running with
    | false =>
      obtain ⟨_, zs₄, rfl, h₄⟩ := Path.call_ret_iff.mp h₃
      cases (Path.ret_iff.mp h₄).2
    | true =>
    have hlater : zs₃.filterMap (PodOp.glance .metrics) <:+ ((⟨.loadRunning .metrics, true⟩ ::
          ⟨.sleep, u⟩ :: ⟨.loadRunning .metrics, true⟩ :: zs₃ :
          List (Exchange PodOp PodOp.Res)).filterMap (PodOp.glance .metrics)) :=
      ⟨[.flag true, .flag true], rfl⟩
    cases turn with
    | nothing | otherRequest => exact (ih h₃).turn _ (flagsRead_turn u zs₃) hlater
    | scrape fuel =>
      obtain ⟨snapshot, fs, gs, rfl, hcollect, hrest⟩ := (Path.bind_ret_iff
        (p := Pod.handler (GameService.collectMetricsSnapshot cfg fuel))).mp h₃
      have hfs := flags_of_callsServer (w := .metrics) (handler_callsServer _) hcollect
      have hflags := flagsRead_turn u (fs ++ gs)
      rw [List.filterMap_append, flagsRead_append, hfs, List.nil_append] at hflags
      cases snapshot with
      | some snapshot =>
        refine (ih hrest).turn _ hflags (List.IsSuffix.trans ?_ hlater)
        rw [List.filterMap_append]
        exact List.suffix_append _ _
      | none =>
        obtain ⟨rfl, -⟩ := Path.ret_iff.mp hrest
        obtain ⟨ys, hys, hexpands⟩ := Path.of_expand hcollect
        have hsame : fs.filterMap (PodOp.glance .metrics) = ys.filterMap ServerOp.glance :=
          Expands.filterMap_eq_of_op (f := fun o => .op (PodOp.server o))
            (fun o => ⟨PodOp.server o, id, rfl, fun _ => rfl⟩) hexpands
        have hle := le_pages_of_collect hys
        rw [← hsame] at hle
        rw [List.append_nil] at hlater hflags ⊢
        exact ⟨1, hflags, Or.inr ⟨0, fuel, _, rfl, rfl, hlater, hfs, hle⟩⟩

theorem usedUp_of_cutOff {req : PodRequest cfg.podIp} {w : Worker} (hw : req.worker = some w)
    (h : Path (Pod.code cfg req) zs (.ret .cutOff)) :
    req.UsedUp (zs.filterMap (PodOp.glance w)) := by
  cases req with
  | heartbeatThread turns =>
    cases hw
    obtain ⟨_, zs₁, rfl, h₁⟩ := Path.call_ret_iff.mp h
    have hused : flagsRead (zs₁.filterMap (PodOp.glance .heartbeat)) = List.replicate turns true :=
      heartbeatLoop_cutOff h₁
    exact hused
  | metricsThread listening turns =>
    cases hw
    obtain ⟨_, zs₁, rfl, h₁⟩ := Path.call_ret_iff.mp h
    cases listening with
    | false =>
      obtain ⟨_, zs₂, rfl, h₂⟩ := Path.call_ret_iff.mp h₁
      cases (Path.ret_iff.mp h₂).2
    | true =>
      have hused : MetricsUsedUp turns (zs₁.filterMap (PodOp.glance .metrics)) :=
        metricsLoop_cutOff h₁
      exact ⟨rfl, hused⟩
  | rpc _ | gracefulShutdown | foreign _ => cases hw

end paths

namespace LockedPod

theorem method_issues (call : RoomCall) : (method call).Issues fun o => ∃ op, o = .room op := by
  refine Prog.Issues.expand_all (fun o => ?_) (RoomLock.code call)
  exact ⟨⟨o, rfl⟩, fun _ => trivial⟩

theorem glance_of_roomCall {op : PodOp} {x : RoomCall × (RoomReply → op.Res)}
    (h : op.roomCall = some x) (w : Worker) (r : op.Res) : PodOp.glance w ⟨op, r⟩ = none := by
  cases op with
  | server op =>
    cases op with
    | redis op => cases h
    | _ => rfl
  | loadRunning w' => cases h
  | _ => rfl

theorem glances_of_steps {w : Worker} {op : PodOp} {es : List (Exchange StepOp StepOp.Res)}
    {r : op.Res} (h : Path (steps op) es (.ret r)) :
    es.filterMap (StepOp.glance w) = (PodOp.glance w ⟨op, r⟩).toList := by
  rw [steps_eq] at h
  cases hcall : op.roomCall with
  | none =>
    rw [hcall] at h
    obtain ⟨r', fs, rfl, hret⟩ := Path.call_ret_iff.mp h
    obtain ⟨rfl, heq⟩ := Path.ret_iff.mp hret
    cases heq
    exact filterMap_singleton _ _
  | some x =>
    rw [hcall] at h
    obtain ⟨reply, fs, gs, rfl, hmethod, hret⟩ := Path.bind_ret_iff.mp h
    obtain ⟨rfl, -⟩ := Path.ret_iff.mp hret
    have hrooms := hmethod.issued (method_issues x.1)
    rw [glance_of_roomCall hcall, List.append_nil]
    refine List.filterMap_eq_nil_iff.mpr ?_
    rintro ⟨o, r⟩ hx
    obtain ⟨op, rfl⟩ := hrooms _ hx
    rfl

end LockedPod

namespace SteppedPod
variable {sim : Simulator} {cfg : ServiceConfig} {scanPage : ScanPolicy}

theorem method_issues (call : EngineCall) :
    (method call : Steps sim _).Issues fun o => ∃ op, o = .engine op := by
  refine Prog.Issues.expand_all (fun o => ?_) (EngineLock.code call)
  exact ⟨⟨o, rfl⟩, fun _ => trivial⟩

theorem glance_of_engineCall {op : StepOp} {x : EngineCall × (EngineReply → op.Res)}
    (h : op.engineCall = some x) (w : Worker) (r : op.Res) : StepOp.glance w ⟨op, r⟩ = none := by
  cases op with
  | room op => rfl
  | pod op =>
  cases op with
  | server op =>
    cases op with
    | redis op => cases h
    | _ => rfl
  | loadRunning w' => cases h
  | _ => rfl

theorem glances_of_steps {w : Worker} {op : StepOp}
    {es : List (Exchange (SteppedOp sim) SteppedOp.Res)}
    {r : op.Res} (h : Path (steps op) es (.ret r)) :
    es.filterMap (SteppedOp.glance w) = (StepOp.glance w ⟨op, r⟩).toList := by
  rw [steps] at h
  cases hcall : op.engineCall with
  | none =>
    rw [hcall] at h
    obtain ⟨r', fs, rfl, hret⟩ := Path.call_ret_iff.mp h
    obtain ⟨rfl, heq⟩ := Path.ret_iff.mp hret
    cases heq
    exact filterMap_singleton _ _
  | some x =>
    rw [hcall] at h
    obtain ⟨reply, fs, gs, rfl, hmethod, hret⟩ := Path.bind_ret_iff.mp h
    obtain ⟨rfl, -⟩ := Path.ret_iff.mp hret
    have hengine := hmethod.issued (method_issues x.1)
    rw [glance_of_engineCall hcall, List.append_nil]
    refine List.filterMap_eq_nil_iff.mpr ?_
    rintro ⟨o, r⟩ hx
    obtain ⟨op, rfl⟩ := hengine _ hx
    rfl

/-- A worker whose loop has been cut off has used all that its loop was given. -/
theorem usedUp_of_cutOff {server : ServerState sim Store}
    {c : Config (SteppedPod sim) (PodRequest cfg.podIp) (SteppedOp sim) SteppedOp.Res PodResult}
    (h : (system sim cfg scanPage).Reachable (fun _ _ => True) (started server) c) {t : ℕ}
    {req : PodRequest cfg.podIp} {w : Worker} (hw : req.worker = some w)
    (hpool : c.pool[t]? = some ⟨req, .ret .cutOff⟩) :
    req.UsedUp ((history t c.log).filterMap (SteppedOp.glance w)) := by
  have hpath := (System.path_of_reachable h).2 t _ hpool
  obtain ⟨es, hes, hexpands⟩ := Path.of_expand hpath
  obtain ⟨zs, hzs, hexpands'⟩ := Path.of_expand hes
  rw [hexpands.filterMap_eq fun _ _ _ => glances_of_steps,
    hexpands'.filterMap_eq fun _ _ _ => LockedPod.glances_of_steps]
  exact PokemonServer.usedUp_of_cutOff hw hzs

end SteppedPod
end PokemonServer
