import PokemonServer.RoomSnapshot

/-!
# The order of turns and of their snapshots

A turn is computed under the engine's lock and its response is written to Redis
after the lock has been released. For a room that is never destroyed, Redis holds
the latest result once its handlers are done, provided each write is made by the
handler of the latest result or while that handler's own write is still ahead.
-/

namespace PokemonServer
open Interleaving RedisClient RoomProtocol

/-- The handler and the text of the newest accepted turn on `r`, by the history. -/
def lastTurn (text : JsonText) (r : String) :
    List (Event ServerOp ServerOp.Res) → Option (ℕ × String)
  | [] => none
  | ⟨t, .processTurn sessionId _, .ok turn⟩ :: es =>
    if sessionId = r ∧ turn.accepted then some (t, text.dump turn.response) else lastTurn text r es
  | _ :: es => lastTurn text r es

/-- The handler and the text of the state that the creation of `r` read. -/
def stateRead (text : JsonText) (r : String) :
    List (Event ServerOp ServerOp.Res) → Option (ℕ × String)
  | [] => none
  | ⟨t, .getState sessionId, .ok (.ok state)⟩ :: es =>
    if sessionId = r then some (t, text.dump state) else stateRead text r es
  | _ :: es => stateRead text r es

/-- The result that Redis should hold: the last accepted turn, or else the first state. -/
def latest (text : JsonText) (r : String) (log : List (Event ServerOp ServerOp.Res)) :
    Option (ℕ × String) :=
  (lastTurn text r log).or (stateRead text r log)

variable {sim : Simulator} {R : Type} {cfg : ServiceConfig} {scanPage : ScanPolicy}
  {text : JsonText} {r : String} {log : List (Event ServerOp ServerOp.Res)} {t : ℕ}

section history

def NoResult (r : String) : ServerOp → Prop
  | .processTurn sessionId _ | .getState sessionId => sessionId ≠ r
  | _ => True

theorem lastTurn_of_noResult {op : ServerOp} (h : NoResult r op) (res : op.Res) :
    lastTurn text r (⟨t, op, res⟩ :: log) = lastTurn text r log := by
  cases op with
  | processTurn sessionId action =>
    have hne : sessionId ≠ r := h
    cases res <;> simp [lastTurn, hne]
  | _ => rfl

theorem latest_of_noResult {op : ServerOp} (h : NoResult r op) (res : op.Res) :
    latest text r (⟨t, op, res⟩ :: log) = latest text r log := by
  have hread : stateRead text r (⟨t, op, res⟩ :: log) = stateRead text r log := by
    cases op with
    | getState sessionId =>
      have hne : sessionId ≠ r := h
      match res with
      | .error _ | .ok (.error _) | .ok (.ok _) => simp [stateRead, hne]
    | _ => rfl
  rw [latest, latest, lastTurn_of_noResult h, hread]

theorem latest_accepted {action : Json} {turn : TurnResult} (h : turn.accepted = true) :
    lastTurn text r (⟨t, .processTurn r action, .ok turn⟩ :: log) =
        some (t, text.dump turn.response) ∧
      latest text r (⟨t, .processTurn r action, .ok turn⟩ :: log) =
        some (t, text.dump turn.response) := by
  simp [latest, lastTurn, h]

theorem latest_rejected {sessionId : String} {action : Json} {res : Except Exn TurnResult}
    (h : ∀ turn, res = .ok turn → turn.accepted = false) :
    lastTurn text r (⟨t, .processTurn sessionId action, res⟩ :: log) = lastTurn text r log ∧
      latest text r (⟨t, .processTurn sessionId action, res⟩ :: log) = latest text r log := by
  cases res with
  | error exn => exact ⟨rfl, rfl⟩
  | ok turn => simp [latest, lastTurn, stateRead, h turn rfl]

theorem latest_noState {sessionId : String} {res : Except Exn (Except String Json)}
    (h : ∀ state, res ≠ .ok (.ok state)) :
    latest text r (⟨t, .getState sessionId, res⟩ :: log) = latest text r log := by
  match res, h with
  | .error _, _ | .ok (.error _), _ => rfl
  | .ok (.ok state), h => exact absurd rfl (h state)

theorem latest_readState (state : Json) :
    latest text r (⟨t, .getState r, .ok (.ok state)⟩ :: log) =
      if lastTurn text r log = none then some (t, text.dump state) else latest text r log := by
  cases hturn : lastTurn text r log <;> simp [latest, lastTurn, stateRead, hturn]

end history

/-- Requests that leave the room `r` and its snapshot key alone, or use them
without destroying the room. -/
def Spares (r : String) : Request → Prop
  | .destroyRoom request => request.roomId ≠ r ∧ roomKey r ∉ deletedKeys request.roomId
  | _ => True

def Writing (r data : String) (req : Request) (φ : Phase) : Prop :=
  req.roomId = r ∧ φ = .writing data

def Created (r : String) (req : Request) (φ : Phase) : Prop :=
  req.roomId = r ∧ φ = .created

def WritesOnly (r data : String) (req : Request) (φ : Phase) : Prop :=
  req.roomId = r ∧ ∀ data', φ = .writing data' → data' = data

/-- A snapshot of `r` is written by the handler of the latest result on `r`, or
while that handler has its own write still to do. -/
def writesInTurnOrder (text : JsonText) (r : String) (v : ServiceView sim R) (t : ℕ)
    (_ : Request) : ServerOp → Prop
  | .redis (.command (.set key _ _)) => key = roomKey r →
    ∃ u data, latest text r v.log = some (u, data) ∧
      (u = t ∨ u ∈ Protocol.threads v.phases (Writing r data))
  | _ => True

structure TurnLife (text : JsonText) (r : String) (s : ServerState sim Store) (phases : Phases)
    (log : List (Event ServerOp ServerOp.Res)) : Prop where
  stored : ∀ u data, latest text r log = some (u, data) →
    s.redis.lookup (roomKey r) = some (.string data) ∨
      u ∈ Protocol.threads phases (Writing r data)
  holder : ∀ u data, latest text r log = some (u, data) →
    u ∈ Protocol.threads phases (WritesOnly r data)
  turn_holder : ∀ u data, lastTurn text r log = some (u, data) →
    u ∈ Protocol.threads phases fun req _ => ∃ q, req = .sendCommand q
  session_of_created : (Protocol.threads phases (Created r)).Nonempty → r ∈ s.engine.sessions
  latest_of_session : sim.StateReturns → r ∈ s.engine.sessions →
    (latest text r log).isSome ∨ (Protocol.threads phases (Created r)).Nonempty

namespace TurnLife
variable {s s' : ServerState sim Store} {phases : Phases}
  {log' : List (Event ServerOp ServerOp.Res)} {req : Request} {φ φ' : Phase}

theorem congr (h : TurnLife text r s phases log) (ht : phases t = some (req, φ))
    (hlatest : latest text r log' = latest text r log)
    (hturn : lastTurn text r log' = lastTurn text r log)
    (hkey : s'.redis.lookup (roomKey r) = s.redis.lookup (roomKey r))
    (hsession : r ∈ s'.engine.sessions ↔ r ∈ s.engine.sessions)
    (hwriting : ∀ data, Writing r data req φ' ↔ Writing r data req φ)
    (hcreated : Created r req φ' ↔ Created r req φ) :
    TurnLife text r s' (Function.update phases t (some (req, φ'))) log' where
  stored u data hu := by
    rw [hkey]
    exact (h.stored u data (hlatest ▸ hu)).imp_right fun hw =>
      Protocol.subset_threads_update ht (hwriting data).mpr hw
  holder u data hu := by
    refine Protocol.subset_threads_update ht ?_ (h.holder u data (hlatest ▸ hu))
    rintro ⟨hroom, hdata⟩
    exact ⟨hroom, fun data' hφ' => hdata data' ((hwriting data').mp ⟨hroom, hφ'⟩).2⟩
  turn_holder u data hu := by
    refine Protocol.subset_threads_update ht ?_ (h.turn_holder u data (hturn ▸ hu))
    exact id
  session_of_created hne := by
    rw [Protocol.threads_update_iff ht hcreated] at hne
    exact hsession.mpr (h.session_of_created hne)
  latest_of_session hstate hmem := by
    rw [hlatest, Protocol.threads_update_iff ht hcreated]
    exact h.latest_of_session hstate (hsession.mp hmem)

theorem produced (h : TurnLife text r s phases log) (ht : phases t = some (req, φ))
    {data : String} (hlatest : latest text r log' = some (t, data))
    (hturn : ∀ u data', lastTurn text r log' = some (u, data') →
      lastTurn text r log = some (u, data') ∨ u = t ∧ ∃ q, req = .sendCommand q)
    (hsession : r ∈ s.engine.sessions → r ∈ s'.engine.sessions) (hroom : req.roomId = r) :
    TurnLife text r s' (Function.update phases t (some (req, .writing data))) log' where
  stored u data' hu := by
    rw [hlatest] at hu
    cases hu
    exact Or.inr (Protocol.mem_threads_update.mpr (Or.inl ⟨rfl, hroom, rfl⟩))
  holder u data' hu := by
    rw [hlatest] at hu
    cases hu
    refine Protocol.mem_threads_update.mpr (Or.inl ⟨rfl, hroom, fun data' hd => ?_⟩)
    cases hd
    rfl
  turn_holder u data' hu := by
    rcases hturn u data' hu with hold | ⟨rfl, q, rfl⟩
    · refine Protocol.subset_threads_update ht ?_ (h.turn_holder u data' hold)
      exact id
    · exact Protocol.mem_threads_update.mpr (Or.inl ⟨rfl, q, rfl⟩)
  session_of_created hne := by
    rw [Protocol.threads_update_neg (by simp [Created])] at hne
    exact hsession (h.session_of_created (hne.mono Set.sdiff_subset))
  latest_of_session _ _ := Or.inl (by simp [hlatest])

theorem silent (h : TurnLife text r s phases log) (ht : phases t = some (req, φ)) {op : ServerOp}
    (hno : NoResult r op) (res : op.Res)
    (hkey : s'.redis.lookup (roomKey r) = s.redis.lookup (roomKey r))
    (hsession : r ∈ s'.engine.sessions ↔ r ∈ s.engine.sessions)
    (hwriting : ∀ data, Writing r data req φ' ↔ Writing r data req φ)
    (hcreated : Created r req φ' ↔ Created r req φ) :
    TurnLife text r s' (Function.update phases t (some (req, φ'))) (⟨t, op, res⟩ :: log) :=
  h.congr ht (latest_of_noResult hno res) (lastTurn_of_noResult hno res) hkey hsession hwriting
    hcreated

theorem opened (h : TurnLife text r s phases log) (ht : phases t = some (req, .creating))
    (hlatest : latest text r log' = latest text r log)
    (hturn : lastTurn text r log' = lastTurn text r log)
    (hkey : s'.redis.lookup (roomKey r) = s.redis.lookup (roomKey r))
    (hsession : r ∈ s'.engine.sessions) (hroom : req.roomId = r) :
    TurnLife text r s' (Function.update phases t (some (req, .created))) log' where
  stored u data hu := by
    rw [hkey]
    refine (h.stored u data (hlatest ▸ hu)).imp_right fun hw => ?_
    exact Protocol.subset_threads_update ht (by simp [Writing]) hw
  holder u data hu :=
    Protocol.subset_threads_update ht (by simp [WritesOnly]) (h.holder u data (hlatest ▸ hu))
  turn_holder u data hu :=
    Protocol.subset_threads_update ht (by simp) (h.turn_holder u data (hturn ▸ hu))
  session_of_created _ := hsession
  latest_of_session _ _ :=
    Or.inr ⟨t, Protocol.mem_threads_update.mpr (Or.inl ⟨rfl, hroom, rfl⟩)⟩

theorem wrote (h : TurnLife text r s phases log) {data : String}
    (ht : phases t = some (req, .writing data))
    (hlatest : latest text r log' = latest text r log)
    (hturn : lastTurn text r log' = lastTurn text r log)
    (hkey : s'.redis.lookup (roomKey r) = some (.string data))
    (hsession : s'.engine = s.engine) (hroom : req.roomId = r)
    (hguard : ∃ u data', latest text r log = some (u, data') ∧
      (u = t ∨ u ∈ Protocol.threads phases (Writing r data'))) :
    TurnLife text r s' (Function.update phases t (some (req, .idle))) log' where
  stored u data' hu := by
    rw [hlatest] at hu
    obtain ⟨u', data'', hu', hown⟩ := hguard
    obtain ⟨rfl, rfl⟩ : u' = u ∧ data'' = data' := by simpa [hu'] using hu
    by_cases hut : u' = t
    · subst hut
      have hdata := ((Protocol.mem_threads ht).mp (h.holder u' data'' hu')).2 data rfl
      exact Or.inl (hdata ▸ hkey)
    · exact Or.inr (Protocol.mem_threads_update.mpr (Or.inr ⟨hut, hown.resolve_left hut⟩))
  holder u data' hu := by
    refine Protocol.subset_threads_update ht ?_ (h.holder u data' (hlatest ▸ hu))
    exact fun _ => ⟨hroom, by simp⟩
  turn_holder u data' hu :=
    Protocol.subset_threads_update ht (by simp) (h.turn_holder u data' (hturn ▸ hu))
  session_of_created hne := by
    rw [Protocol.threads_update_iff ht (by simp [Created])] at hne
    exact hsession ▸ h.session_of_created hne
  latest_of_session hstate hmem := by
    rw [hlatest, Protocol.threads_update_iff ht (by simp [Created])]
    exact h.latest_of_session hstate (hsession ▸ hmem)

theorem overtaken (h : TurnLife text r s phases log) (ht : phases t = some (req, .created))
    (hlatest : latest text r log' = latest text r log)
    (hturn : lastTurn text r log' = lastTurn text r log) (hsome : lastTurn text r log ≠ none)
    (hreq : ∀ q, req ≠ .sendCommand q) {data : String} :
    TurnLife text r s (Function.update phases t (some (req, .writing data))) log' where
  stored u data' hu := by
    refine (h.stored u data' (hlatest ▸ hu)).imp_right fun hw => ?_
    exact Protocol.subset_threads_update ht (by simp [Writing]) hw
  holder u data' hu := by
    have hne : u ≠ t := by
      rintro rfl
      obtain ⟨p, hp⟩ := Option.ne_none_iff_exists'.mp hsome
      rw [hlatest, latest, hp] at hu
      have hup : p = (u, data') := by simpa using hu
      obtain ⟨q, hq⟩ := (Protocol.mem_threads ht).mp (h.turn_holder u data' (hup ▸ hp))
      exact hreq q hq
    exact Protocol.mem_threads_update.mpr (Or.inr ⟨hne, h.holder u data' (hlatest ▸ hu)⟩)
  turn_holder u data' hu := by
    refine Protocol.subset_threads_update ht ?_ (h.turn_holder u data' (hturn ▸ hu))
    exact id
  session_of_created hne := by
    refine h.session_of_created (hne.mono ?_)
    exact Protocol.threads_update_subset ht (by simp [Created])
  latest_of_session _ _ := by
    refine Or.inl ?_
    rw [hlatest, latest]
    obtain ⟨p, hp⟩ := Option.ne_none_iff_exists'.mp hsome
    simp [hp]

theorem stateless (h : TurnLife text r s phases log) (ht : phases t = some (req, .created))
    (hlatest : latest text r log' = latest text r log)
    (hturn : lastTurn text r log' = lastTurn text r log)
    (hno : ∀ state, s.engine.getState r ≠ .ok (.ok state)) :
    TurnLife text r s (Function.update phases t (some (req, .idle))) log' where
  stored u data' hu := by
    refine (h.stored u data' (hlatest ▸ hu)).imp_right fun hw => ?_
    exact Protocol.subset_threads_update ht (by simp [Writing]) hw
  holder u data' hu :=
    Protocol.subset_threads_update ht (by simp [WritesOnly]) (h.holder u data' (hlatest ▸ hu))
  turn_holder u data' hu :=
    Protocol.subset_threads_update ht (by simp) (h.turn_holder u data' (hturn ▸ hu))
  session_of_created hne :=
    h.session_of_created (hne.mono (Protocol.threads_update_subset ht (by simp [Created])))
  latest_of_session hstate hmem := by
    obtain ⟨state, hs⟩ := BattleEngine.getState_of_mem hstate hmem
    exact absurd hs (hno state)

theorem effect {v : ServiceView sim Store} {op : ServerOp}
    (h : TurnLife cfg.text r v.shared v.phases v.log) (hspares : Spares r req)
    (ht : v.phases t = some (req, φ))
    (heff : Effect cfg (Store.backend scanPage) v.shared req φ op φ' s')
    (hguard : writesInTurnOrder cfg.text r v t req op) :
    TurnLife cfg.text r s' (Function.update v.phases t (some (req, φ')))
      (⟨t, op, (GameService.exec (Store.backend scanPage) op v.shared).1⟩ :: v.log) := by
  cases heff with
  | read hread =>
    have hno : NoResult r op := by cases op <;> trivial
    exact h.silent ht hno _ rfl Iff.rfl (fun _ => Iff.rfl) Iff.rfl
  | @openSession q init session hsession hnot =>
    by_cases hr : q.roomId = r
    · exact h.opened ht (latest_of_noResult (by trivial) _)
        (lastTurn_of_noResult (by trivial) _) rfl
        (by simp [hr]) hr
    · exact h.silent ht (by trivial) _ rfl (by simp [Ne.symm hr]) (by simp [Writing])
        (by simp [Created, Request.roomId, hr])
  | @readState q state hstate =>
    by_cases hr : q.roomId = r
    · subst hr
      have hres : (GameService.exec (Store.backend scanPage) (.getState q.roomId) v.shared).1 =
          .ok (.ok state) := hstate
      have hlatest : latest cfg.text q.roomId (⟨t, .getState q.roomId, .ok (.ok state)⟩ :: v.log) =
          if lastTurn cfg.text q.roomId v.log = none then some (t, cfg.text.dump state)
          else latest cfg.text q.roomId v.log := latest_readState state
      rw [hres]
      by_cases hturn : lastTurn cfg.text q.roomId v.log = none
      · rw [if_pos hturn] at hlatest
        exact h.produced ht hlatest (fun u data' hu => Or.inl hu) id rfl
      · rw [if_neg hturn] at hlatest
        exact h.overtaken ht hlatest rfl hturn (by simp)
    · exact h.silent ht (by exact hr) _ rfl Iff.rfl (by simp [Writing, Request.roomId, hr])
        (by simp [Created, Request.roomId, hr])
  | @noState q hno =>
    by_cases hr : q.roomId = r
    · subst hr
      exact h.stateless ht (latest_noState hno) rfl hno
    · exact h.silent ht (by exact hr) _ rfl Iff.rfl (by simp [Writing])
        (by simp [Created, Request.roomId, hr])
  | @accepted q action turn hturn hacc =>
    by_cases hr : q.roomId = r
    · subst hr
      have hres : (GameService.exec (Store.backend scanPage) (.processTurn q.roomId action)
          v.shared).1 = .ok turn := hturn
      rw [hres]
      refine h.produced ht (latest_accepted hacc).2 (fun u data' hu => Or.inr ?_)
        BattleEngine.mem_processTurn.mpr rfl
      rw [(latest_accepted hacc).1] at hu
      cases hu
      exact ⟨rfl, q, rfl⟩
    · exact h.silent ht (by exact hr) _ rfl BattleEngine.mem_processTurn
        (by simp [Writing, Request.roomId, hr]) (by simp [Created])
  | @rejected q action hrej =>
    exact h.congr ht (latest_rejected hrej).2 (latest_rejected hrej).1 rfl
      BattleEngine.mem_processTurn (fun _ => Iff.rfl) Iff.rfl
  | @dropSession q =>
    have hne : r ≠ q.roomId := fun he => hspares.1 he.symm
    exact h.silent ht (by trivial) _ rfl (by simp [BattleEngine.destroySession, hne]) (by simp [Writing])
      (by simp [Created])
  | @writeSnapshot req data ex =>
    by_cases hr : req.roomId = r
    · subst hr
      exact h.wrote ht (latest_of_noResult (by trivial) _)
        (lastTurn_of_noResult (by trivial) _)
        (by simp [Store.backend, Store.exec]) rfl rfl (hguard rfl)
    · refine h.silent ht (by trivial) _ ?_ Iff.rfl (by simp [Writing, hr]) (by simp [Created, hr])
      simp [Store.backend, Store.exec, AList.lookup_insert_ne, roomKey_injective.ne (Ne.symm hr)]
  | @deleteSnapshot q =>
    refine h.silent ht (by trivial) _ ?_ Iff.rfl (by simp [Writing]) (by simp [Created])
    simp [Store.backend, Store.exec, Store.lookup_delKeys, hspares.2]
  | heartbeat =>
    refine h.silent ht (by trivial) _ ?_ Iff.rfl (fun _ => Iff.rfl) Iff.rfl
    simp [Store.backend, Store.exec, AList.lookup_insert_ne,
      (heartbeatKey_ne_roomKey cfg.podIp r).symm]
  | disconnected hc => cases hc
  | connected => exact h.silent ht (by trivial) _ rfl Iff.rfl (fun _ => Iff.rfl) Iff.rfl
  | _ => exact h.silent ht (by trivial) _ rfl Iff.rfl (by simp [Writing]) (by simp [Created])

end TurnLife

theorem turnLife_of_viewReachable {maxRooms : ℕ} {store : Store} {v : ServiceView sim Store}
    (h : (roomProtocol cfg).ViewReachable (GameService.system sim cfg (Store.backend scanPage))
      (Spares r) (writesInTurnOrder cfg.text r) (GameService.initState maxRooms store) v) :
    TurnLife cfg.text r v.shared v.phases v.log := by
  induction h with
  | init =>
    refine ⟨?_, ?_, ?_, fun hne => ?_, fun _ hmem => ?_⟩
    · rintro u data ⟨⟩
    · rintro u data ⟨⟩
    · rintro u data ⟨⟩
    · simp [Protocol.threads_none] at hne
    · exact absurd hmem Finmap.notMem_empty
  | @start v n req hv hfresh hspares ih =>
    refine ⟨fun u data hu => (ih.stored u data hu).imp_right fun hw =>
        Protocol.subset_threads_start hfresh hw,
      fun u data hu => Protocol.subset_threads_start hfresh (ih.holder u data hu),
      fun u data hu => Protocol.subset_threads_start hfresh (ih.turn_holder u data hu), ?_, ?_⟩ <;>
    rw [Protocol.threads_start hfresh (by simp [Created, roomProtocol])]
    · exact ih.session_of_created
    · exact ih.latest_of_session
  | op hv ht _ hguard hnext ih =>
    exact ih.effect (hv.allowed ht) ht (effect_of_next _ hnext) hguard

def QuietOn (r : String) (c : ServiceConfiguration sim R) : Prop :=
  ∀ th ∈ c.pool, th.req.roomId = r → ∃ outcome, th.prog = .ret outcome

/-- Redis holds the latest result on `r`; there is one when `r` exists and states can be read. -/
def LatestStored (text : JsonText) (r : String) (c : ServiceConfiguration sim Store) : Prop :=
  (∀ u data, latest text r c.log = some (u, data) →
    c.shared.redis.lookup (roomKey r) = some (.string data)) ∧
  (sim.StateReturns → r ∈ c.shared.rooms.rooms → (latest text r c.log).isSome)

theorem idle_of_quietOn {c : ServiceConfiguration sim R}
    (h : (roomProtocol cfg).Tracks Possible c) (hq : QuietOn r c) {u : ℕ} {req : Request} {φ : Phase}
    (hu : ((roomProtocol cfg).view c).phases u = some (req, φ)) (hroom : req.roomId = r) :
    φ = .idle := by
  refine h.final hu fun th hth => hq th (List.mem_of_getElem? hth) ?_
  simp only [Protocol.view, hth, Option.bind_some, Option.map_eq_some_iff] at hu
  obtain ⟨φ', -, hφ'⟩ := hu
  rw [Prod.mk.injEq] at hφ'
  rw [hφ'.1, hroom]

/-- In a run that never destroys `r` and writes its snapshots in turn order, Redis
holds the latest result on `r` whenever the handlers of `r` are done. -/
theorem latestStored_of_writesInTurnOrder (hsim : sim.CreationReturns) (scanPage : ScanPolicy)
    (maxRooms : ℕ) (store : Store) (r : String) {c : ServiceConfiguration sim Store}
    (h : (GameService.system sim cfg (Store.backend scanPage)).Reachable
      ((roomProtocol cfg).guarded (Spares r) (writesInTurnOrder cfg.text r))
      (GameService.initState maxRooms store) c)
    (hq : QuietOn r c) : LatestStored cfg.text r c := by
  obtain ⟨htracks, hview⟩ := tracks hsim h
  have hlife : TurnLife cfg.text r c.shared _ c.log := turnLife_of_viewReachable hview
  constructor
  · intro u data hu
    refine (hlife.stored u data hu).resolve_right ?_
    rintro ⟨req, φ, hφ, hroom, hwriting⟩
    cases (idle_of_quietOn htracks hq hφ hroom).symm.trans hwriting
  · intro hstate hmem
    have hguard : ∀ (v : ServiceView sim Store) t req op, Spares r req →
        writesInTurnOrder cfg.text r v t req op → NoHalfClosed r v.phases req op := by
      rintro v t req op hspares - rfl rfl
      exact absurd rfl hspares.1
    have hroom : RoomLife r c.shared _ := roomLife_of_viewReachable hguard hview
    have hhalf : ¬ (Protocol.threads ((roomProtocol cfg).view c).phases (Half r)).Nonempty := by
      rintro ⟨u, req, φ, hφ, hid, hphase⟩
      rw [idle_of_quietOn htracks hq hφ hid] at hphase
      simp at hphase
    have hsession := (hroom.live_iff.mp ⟨hmem, hhalf⟩).1
    refine (hlife.latest_of_session hstate hsession).resolve_right ?_
    rintro ⟨u, req, φ, hφ, hid, hphase⟩
    cases (idle_of_quietOn htracks hq hφ hid).symm.trans hphase

def Sample.turnsWrittenBackwards : List (Action Request) :=
  begin (create "r") ++ calls 0 7 ++ begin (command "r") ++ begin (command "r") ++ calls 1 2 ++
    calls 2 4 ++ calls 1 2

open Sample in
theorem latest_turn_overwritten :
    ∃ c, service.Reachable (fun _ _ => True) state c ∧
      c.pool.map Thread.req = [create "r", command "r", command "r"] ∧ c.Quiescent ∧
      ¬ LatestStored config.text "r" c := by
  obtain ⟨c, hreach, hcheck⟩ := System.exists_reachable_of_schedule (S := service) (s := state)
    turnsWrittenBackwards
    (fun c => c.isQuiescent &&
      decide (c.pool.map Thread.req = [create "r", command "r", command "r"]) &&
      decide (latest config.text "r" c.log = some (2, turnText 2)) &&
      !decide (c.shared.redis.lookup (roomKey "r") = some (.string (turnText 2))))
    (by decide +kernel)
  simp only [Bool.and_eq_true, Bool.not_eq_true', decide_eq_true_eq, decide_eq_false_iff_not]
    at hcheck
  obtain ⟨⟨⟨hquiet, hreqs⟩, hlatest⟩, hstored⟩ := hcheck
  exact ⟨c, hreach, hreqs, Config.quiescent_of_isQuiescent hquiet,
    fun hst => hstored (hst.1 _ _ hlatest)⟩

instance (r : String) (req : Request) : Decidable (Spares r req) :=
  match req with
  | .destroyRoom _ => inferInstanceAs (Decidable (_ ∧ _))
  | .createRoom _ | .sendCommand _ | .getHeartbeat => inferInstanceAs (Decidable True)

def writesInTurnOrderTest (text : JsonText) (r : String) (c : ServiceConfiguration sim R) (t : ℕ)
    (_ : Request) : ServerOp → Bool
  | .redis (.command (.set key _ _)) =>
    decide (key ≠ roomKey r) || decide ((latest text r c.log).map Prod.fst = some t)
  | _ => true

theorem writesInTurnOrder_of_test {c : ServiceConfiguration sim R} {t : ℕ} {req : Request}
    {op : ServerOp} (h : writesInTurnOrderTest text r c t req op = true) :
    writesInTurnOrder text r ((roomProtocol cfg).view c) t req op := by
  unfold writesInTurnOrderTest at h
  split at h
  · intro hkey
    simp only [hkey, ne_eq, not_true, decide_false, Bool.false_or, decide_eq_true_eq,
      Option.map_eq_some_iff] at h
    obtain ⟨⟨u, data⟩, hlatest, rfl⟩ := h
    exact ⟨u, data, hlatest, Or.inl rfl⟩
  · unfold writesInTurnOrder
    split <;> simp_all

def Sample.turnsWrittenInOrder : List (Action Request) :=
  begin (create "r") ++ calls 0 7 ++ begin (command "r") ++ calls 1 4 ++ begin (command "r") ++
    begin (create "s") ++ calls 2 2 ++ calls 3 7 ++ begin (destroy "s") ++ calls 4 4 ++ calls 2 2

open Sample in
theorem latestStored_after_turnsWrittenInOrder :
    ∃ c, service.Reachable ((roomProtocol config).guarded (Spares "r")
        (writesInTurnOrder config.text "r")) state c ∧
      latest config.text "r" c.log = some (2, turnText 2) ∧
      LatestStored config.text "r" c := by
  obtain ⟨c, hreach, hcheck⟩ := Protocol.exists_guarded_of_replay (S := service) (s := state)
    (P := roomProtocol config) (fun req => decide (Spares "r" req))
    (writesInTurnOrderTest config.text "r") (fun _ => of_decide_eq_true)
    (fun _ _ _ _ => writesInTurnOrder_of_test) turnsWrittenInOrder
    (fun c => c.isQuiescent && decide (latest config.text "r" c.log = some (2, turnText 2)))
    (by decide +kernel)
  simp only [Bool.and_eq_true, decide_eq_true_eq] at hcheck
  have hquiet := Config.quiescent_of_isQuiescent hcheck.1
  exact ⟨c, hreach, hcheck.2, latestStored_of_writesInTurnOrder (fun _ _ h => by cases h) scanAll 10 ∅
    "r" hreach fun th hth _ => hquiet th hth⟩

end PokemonServer
