import PokemonServer.BattleEngine
import PokemonServer.Interleaving.Completion
import PokemonServer.Interleaving.SharedMutex

/-!
# The lock of BattleEngine

The methods of BattleEngine, step by step. A session is built before the lock is taken;
a turn is processed under it, and an exception of the simulator or of the judgement
leaves the section through the destructor of the lock. Whatever the interleaving, the
methods take effect at once.
-/

namespace PokemonServer
open Interleaving

structure LockedEngine (sim : Simulator) where
  engine : BattleEngine sim
  writer : Bool
  readers : ℕ

inductive EngineOp (sim : Simulator) where
  | isEmpty (sessionId : String)
  | createFromJson (initRequest : Json)
  | lock
  | unlock
  | lockShared
  | unlockShared
  | find (sessionId : String)
  | emplace (sessionId : String) (session : sim.BattleSession)
  | processTurn (sessionId : String) (turnRequest : Json)
  | getBattle (sessionId : String)
  | battleAllInfoToJson (sessionId : String)
  | erase (sessionId : String)

abbrev EngineOp.Res {sim : Simulator} : EngineOp sim → Type
  | .isEmpty _ | .find _ | .erase _ => Bool
  | .createFromJson _ => Except Exn (Except String sim.BattleSession)
  | .processTurn _ _ => Except Exn Json
  | .getBattle _ => Bool
  | .battleAllInfoToJson _ => Except Exn Json
  | _ => Unit

inductive EngineCall where
  | createSession (sessionId : String) (initRequest : Json)
  | processTurn (sessionId : String) (turnRequest : Json)
  | getState (sessionId : String)
  | destroySession (sessionId : String)
  | hasSession (sessionId : String)

inductive EngineReply where
  | created (result : Except Exn (Except String Unit))
  | turn (result : Except Exn TurnResult)
  | state (result : Except Exn (Except String Json))
  | bool (b : Bool)

variable {sim : Simulator}

namespace EngineLock

abbrev Method (sim : Simulator) := Prog (EngineOp sim) EngineOp.Res EngineReply

def init : LockedEngine sim := ⟨BattleEngine.init, false, 0⟩

def battleOf (e : BattleEngine sim) (sessionId : String) : Option sim.Battle :=
  (e.sessions.lookup sessionId).bind sim.getBattle

def exec : (op : EngineOp sim) → LockedEngine sim → op.Res × LockedEngine sim
  | .isEmpty sessionId, s => (sessionId.isEmpty, s)
  | .createFromJson initRequest, s => (sim.createFromJson initRequest, s)
  | .lock, s => ((), { s with writer := true })
  | .unlock, s => ((), { s with writer := false })
  | .lockShared, s => ((), { s with readers := s.readers + 1 })
  | .unlockShared, s => ((), { s with readers := s.readers - 1 })
  | .find sessionId, s => (decide (sessionId ∈ s.engine.sessions), s)
  | .emplace sessionId session, s =>
    ((), { s with engine := ⟨s.engine.sessions.insert sessionId session⟩ })
  | .processTurn sessionId turnRequest, s =>
    match s.engine.sessions.lookup sessionId with
    | some session => ((sim.processTurn session turnRequest).1, { s with
        engine := ⟨s.engine.sessions.insert sessionId (sim.processTurn session turnRequest).2⟩ })
    -- never executed: the iterator was found under the same lock
    | none => (.ok .null, s)
  | .getBattle sessionId, s => ((battleOf s.engine sessionId).isSome, s)
  | .battleAllInfoToJson sessionId, s =>
    match battleOf s.engine sessionId with
    | some battle => (sim.battleAllInfoToJson battle, s)
    -- never executed: the pointer was tested under the same lock
    | none => (.ok .null, s)
  | .erase sessionId, s =>
    (decide (sessionId ∈ s.engine.sessions),
      { s with engine := ⟨s.engine.sessions.erase sessionId⟩ })

def enabled : EngineOp sim → LockedEngine sim → Bool
  | .lock, s => !s.writer && s.readers == 0
  | .lockShared, s => !s.writer
  | _, _ => true

/-- Leaving the scope of the unique_lock, also by an exception. -/
def unlockWith (reply : EngineReply) : Method sim := do
  let _ ← .op EngineOp.unlock
  return reply

def unlockSharedWith (reply : EngineReply) : Method sim := do
  let _ ← .op EngineOp.unlockShared
  return reply

def createSession (sessionId : String) (initRequest : Json) : Method sim := do
  if ← .op (EngineOp.isEmpty sessionId) then
    return .created (.ok (.error "session_id cannot be empty"))
  else
    match ← .op (EngineOp.createFromJson initRequest) with
    | .error exn => return .created (.error exn)
    | .ok (.error localError) => return .created (.ok (.error localError))
    | .ok (.ok session) =>
      let _ ← .op EngineOp.lock
      if ← .op (EngineOp.find sessionId) then
        unlockWith (.created (.ok (.error ("session already exists: " ++ sessionId))))
      else
        let _ ← .op (EngineOp.emplace sessionId session)
        unlockWith (.created (.ok (.ok ())))

def processTurn (sessionId : String) (turnRequest : Json) : Method sim := do
  let _ ← .op EngineOp.lock
  if ← .op (EngineOp.find sessionId) then
    let response ← .op (EngineOp.processTurn sessionId turnRequest)
    unlockWith (.turn (response.bind BattleEngine.judgeTurn))
  else
    unlockWith (.turn (.ok ⟨false, .null, "session not found: " ++ sessionId⟩))

def getState (sessionId : String) : Method sim := do
  let _ ← .op EngineOp.lockShared
  if ← .op (EngineOp.find sessionId) then
    if ← .op (EngineOp.getBattle sessionId) then
      let state ← .op (EngineOp.battleAllInfoToJson sessionId)
      unlockSharedWith (.state (state.map .ok))
    else
      unlockSharedWith (.state (.ok (.error ("battle not initialized for session: " ++ sessionId))))
  else
    unlockSharedWith (.state (.ok (.error ("session not found: " ++ sessionId))))

def destroySession (sessionId : String) : Method sim := do
  let _ ← .op EngineOp.lock
  let erased ← .op (EngineOp.erase sessionId)
  unlockWith (.bool erased)

def hasSession (sessionId : String) : Method sim := do
  let _ ← .op EngineOp.lockShared
  let found ← .op (EngineOp.find sessionId)
  unlockSharedWith (.bool found)

def code : EngineCall → Method sim
  | .createSession sessionId initRequest => createSession sessionId initRequest
  | .processTurn sessionId turnRequest => processTurn sessionId turnRequest
  | .getState sessionId => getState sessionId
  | .destroySession sessionId => destroySession sessionId
  | .hasSession sessionId => hasSession sessionId

def system (sim : Simulator) :
    System (LockedEngine sim) EngineCall (EngineOp sim) EngineOp.Res EngineReply where
  code := code
  exec := exec
  enabled := enabled

end EngineLock

def EngineCall.apply (e : BattleEngine sim) : EngineCall → EngineReply × BattleEngine sim
  | .createSession sessionId initRequest =>
    let r := e.createSession sessionId initRequest
    (.created r.1, r.2)
  | .processTurn sessionId turnRequest =>
    let r := e.processTurn sessionId turnRequest
    (.turn r.1, r.2)
  | .getState sessionId => (.state (e.getState sessionId), e)
  | .destroySession sessionId =>
    let r := e.destroySession sessionId
    (.bool r.1, r.2)
  | .hasSession sessionId => (.bool (e.hasSession sessionId), e)

def AtomicEngine.system (sim : Simulator) :
    System (BattleEngine sim) EngineCall EngineCall (fun _ => EngineReply) EngineReply where
  code call := .op call
  exec call e := call.apply e

inductive EngineStage (sim : Simulator) where
  | idle
  | nonempty (sessionId : String)
  | made (sessionId : String) (initRequest : Json) (session : sim.BattleSession)
  | creating (sessionId : String) (initRequest : Json) (session : sim.BattleSession)
  | absent (sessionId : String) (initRequest : Json) (session : sim.BattleSession)
  | locked
  | found (sessionId : String)
  | leaving
  | sharing
  | sharingFound (sessionId : String)
  | hasBattle (sessionId : String)
  | shared

namespace EngineStage

def own : EngineStage sim → Ownership
  | .idle | .nonempty _ | .made _ _ _ => .none
  | .sharing | .sharingFound _ | .hasBattle _ | .shared => .shared
  | _ => .exclusive

inductive Step : EngineStage sim → Exchange (EngineOp sim) EngineOp.Res → EngineStage sim →
    Option (Exchange EngineCall fun _ => EngineReply) → Prop
  | empty (sessionId : String) (initRequest : Json) : sessionId.isEmpty = true →
      Step .idle ⟨.isEmpty sessionId, true⟩ .idle (some ⟨.createSession sessionId initRequest,
        .created (.ok (.error "session_id cannot be empty"))⟩)
  | nonempty (sessionId : String) : sessionId.isEmpty = false →
      Step .idle ⟨.isEmpty sessionId, false⟩ (.nonempty sessionId) none
  | threw (sessionId : String) (initRequest : Json) (exn : Exn) :
      sim.createFromJson initRequest = .error exn →
      Step (.nonempty sessionId) ⟨.createFromJson initRequest, .error exn⟩ .idle
        (some ⟨.createSession sessionId initRequest, .created (.error exn)⟩)
  | failed (sessionId : String) (initRequest : Json) (localError : String) :
      sim.createFromJson initRequest = .ok (.error localError) →
      Step (.nonempty sessionId) ⟨.createFromJson initRequest, .ok (.error localError)⟩ .idle
        (some ⟨.createSession sessionId initRequest, .created (.ok (.error localError))⟩)
  | made (sessionId : String) (initRequest : Json) (session : sim.BattleSession) :
      sim.createFromJson initRequest = .ok (.ok session) →
      Step (.nonempty sessionId) ⟨.createFromJson initRequest, .ok (.ok session)⟩
        (.made sessionId initRequest session) none
  | lockMade (sessionId : String) (initRequest : Json) (session : sim.BattleSession) :
      Step (.made sessionId initRequest session) ⟨.lock, ()⟩
        (.creating sessionId initRequest session) none
  | taken (sessionId : String) (initRequest : Json) (session : sim.BattleSession) :
      Step (.creating sessionId initRequest session) ⟨.find sessionId, true⟩ .leaving
        (some ⟨.createSession sessionId initRequest,
          .created (.ok (.error ("session already exists: " ++ sessionId)))⟩)
  | absent (sessionId : String) (initRequest : Json) (session : sim.BattleSession) :
      Step (.creating sessionId initRequest session) ⟨.find sessionId, false⟩
        (.absent sessionId initRequest session) none
  | emplace (sessionId : String) (initRequest : Json) (session : sim.BattleSession) :
      Step (.absent sessionId initRequest session) ⟨.emplace sessionId session, ()⟩ .leaving
        (some ⟨.createSession sessionId initRequest, .created (.ok (.ok ()))⟩)
  | lock : Step .idle ⟨.lock, ()⟩ .locked none
  | missing (sessionId : String) (turnRequest : Json) :
      Step .locked ⟨.find sessionId, false⟩ .leaving (some ⟨.processTurn sessionId turnRequest,
        .turn (.ok ⟨false, .null, "session not found: " ++ sessionId⟩)⟩)
  | found (sessionId : String) : Step .locked ⟨.find sessionId, true⟩ (.found sessionId) none
  | processTurn (sessionId : String) (turnRequest : Json) (response : Except Exn Json) :
      Step (.found sessionId) ⟨.processTurn sessionId turnRequest, response⟩ .leaving
        (some ⟨.processTurn sessionId turnRequest, .turn (response.bind BattleEngine.judgeTurn)⟩)
  | erase (sessionId : String) (erased : Bool) :
      Step .locked ⟨.erase sessionId, erased⟩ .leaving
        (some ⟨.destroySession sessionId, .bool erased⟩)
  | unlock : Step .leaving ⟨.unlock, ()⟩ .idle none
  | lockShared : Step .idle ⟨.lockShared, ()⟩ .sharing none
  | has (sessionId : String) (found : Bool) :
      Step .sharing ⟨.find sessionId, found⟩ .shared (some ⟨.hasSession sessionId, .bool found⟩)
  | stateless (sessionId : String) : Step .sharing ⟨.find sessionId, false⟩ .shared
      (some ⟨.getState sessionId, .state (.ok (.error ("session not found: " ++ sessionId)))⟩)
  | sharingFound (sessionId : String) :
      Step .sharing ⟨.find sessionId, true⟩ (.sharingFound sessionId) none
  | noBattle (sessionId : String) :
      Step (.sharingFound sessionId) ⟨.getBattle sessionId, false⟩ .shared
        (some ⟨.getState sessionId,
          .state (.ok (.error ("battle not initialized for session: " ++ sessionId)))⟩)
  | hasBattle (sessionId : String) :
      Step (.sharingFound sessionId) ⟨.getBattle sessionId, true⟩ (.hasBattle sessionId) none
  | state (sessionId : String) (state : Except Exn Json) :
      Step (.hasBattle sessionId) ⟨.battleAllInfoToJson sessionId, state⟩ .shared
        (some ⟨.getState sessionId, .state (state.map .ok)⟩)
  | unlockShared : Step .shared ⟨.unlockShared, ()⟩ .idle none

end EngineStage

def EngineOp.Possible : (op : EngineOp sim) → op.Res → Prop
  | .isEmpty sessionId, b => b = sessionId.isEmpty
  | .createFromJson initRequest, result => result = sim.createFromJson initRequest
  | _, _ => True

def engineDiscipline (sim : Simulator) :
    Discipline EngineCall (fun _ => EngineReply) (EngineOp sim) EngineOp.Res (EngineStage sim) where
  idle := .idle
  possible := EngineOp.Possible
  step := EngineStage.Step

namespace EngineLock
open Discipline

theorem unlockWith_mirrors (reply : EngineReply) :
    (engineDiscipline sim).Mirrors .leaving (unlockWith reply) (.ret reply) :=
  .silent fun _ _ => ⟨.idle, .unlock, .ret reply⟩

theorem unlockSharedWith_mirrors (reply : EngineReply) :
    (engineDiscipline sim).Mirrors .shared (unlockSharedWith reply) (.ret reply) :=
  .silent fun _ _ => ⟨.idle, .unlockShared, .ret reply⟩

theorem code_mirrors (call : EngineCall) :
    (engineDiscipline sim).Mirrors .idle (code call) (.op call) := by
  cases call with
  | createSession sessionId initRequest =>
    intro empty hempty
    cases empty with
    | true => exact ⟨.idle, some ⟨_, _⟩, _, .empty _ _ hempty.symm, .cons .nil, .ret _⟩
    | false =>
    refine ⟨_, none, _, .nonempty sessionId hempty.symm, .nil, fun result hresult => ?_⟩
    cases result with
    | error exn => exact ⟨.idle, some ⟨_, _⟩, _, .threw _ _ _ hresult.symm, .cons .nil, .ret _⟩
    | ok result =>
    cases result with
    | error localError =>
      exact ⟨.idle, some ⟨_, _⟩, _, .failed _ _ _ hresult.symm, .cons .nil, .ret _⟩
    | ok session =>
      refine ⟨_, none, _, .made _ _ _ hresult.symm, .nil, .silent fun _ _ => ?_⟩
      refine ⟨_, .lockMade sessionId initRequest session, fun found _ => ?_⟩
      cases found with
      | true =>
        exact ⟨.leaving, some ⟨_, _⟩, _, .taken _ _ _, .cons .nil, unlockWith_mirrors _⟩
      | false =>
        refine ⟨_, none, _, .absent _ _ _, .nil, .commit fun _ _ => ?_⟩
        exact ⟨.leaving, _, .emplace sessionId initRequest session, unlockWith_mirrors _⟩
  | processTurn sessionId turnRequest =>
    refine .silent fun _ _ => ⟨.locked, .lock, fun found _ => ?_⟩
    cases found with
    | true =>
      refine ⟨_, none, _, .found sessionId, .nil, .commit fun response _ => ?_⟩
      exact ⟨.leaving, _, .processTurn sessionId turnRequest response, unlockWith_mirrors _⟩
    | false =>
      exact ⟨.leaving, some ⟨_, _⟩, _, .missing _ turnRequest, .cons .nil, unlockWith_mirrors _⟩
  | getState sessionId =>
    refine .silent fun _ _ => ⟨.sharing, .lockShared, fun found _ => ?_⟩
    cases found with
    | false =>
      exact ⟨.shared, some ⟨_, _⟩, _, .stateless _, .cons .nil, unlockSharedWith_mirrors _⟩
    | true =>
    refine ⟨_, none, _, .sharingFound sessionId, .nil, fun battle _ => ?_⟩
    cases battle with
    | false =>
      exact ⟨.shared, some ⟨_, _⟩, _, .noBattle _, .cons .nil, unlockSharedWith_mirrors _⟩
    | true =>
      refine ⟨_, none, _, .hasBattle sessionId, .nil, .commit fun state _ => ?_⟩
      exact ⟨.shared, _, .state sessionId state, unlockSharedWith_mirrors _⟩
  | destroySession sessionId =>
    refine .silent fun _ _ => ⟨.locked, .lock, .commit fun erased _ => ?_⟩
    exact ⟨.leaving, _, .erase sessionId erased, unlockWith_mirrors _⟩
  | hasSession sessionId =>
    refine .silent fun _ _ => ⟨.sharing, .lockShared, .commit fun found _ => ?_⟩
    exact ⟨.shared, _, .has sessionId found, unlockSharedWith_mirrors _⟩

end EngineLock

def EngineStage.Knows (e : BattleEngine sim) : EngineStage sim → Prop
  | .nonempty sessionId => sessionId.isEmpty = false
  | .made sessionId initRequest session | .creating sessionId initRequest session =>
    sessionId.isEmpty = false ∧ sim.createFromJson initRequest = .ok (.ok session)
  | .absent sessionId initRequest session =>
    (sessionId.isEmpty = false ∧ sim.createFromJson initRequest = .ok (.ok session)) ∧
      sessionId ∉ e.sessions
  | .found sessionId | .sharingFound sessionId => sessionId ∈ e.sessions
  | .hasBattle sessionId => (EngineLock.battleOf e sessionId).isSome = true
  | _ => True

theorem EngineStage.Knows.outside {e e' : BattleEngine sim} {φ : EngineStage sim}
    (h : φ.Knows e) (hown : φ.own = .none) : φ.Knows e' := by
  cases φ with
  | idle => trivial
  | nonempty sessionId => exact h
  | made sessionId initRequest session => exact h
  | _ => cases hown

structure LockedEngine.Implements (e : BattleEngine sim) (s : LockedEngine sim)
    (φ : ℕ → EngineStage sim) : Prop where
  engine : s.engine = e
  held : Held EngineStage.own s.writer s.readers φ
  knows : ∀ t, (φ t).Knows e

namespace BattleEngine
variable {e : BattleEngine sim} {sessionId : String} {initRequest turnRequest : Json}

theorem createSession_threw {exn : Exn} (hid : sessionId.isEmpty = false)
    (h : sim.createFromJson initRequest = .error exn) :
    e.createSession sessionId initRequest = (.error exn, e) := by
  simp [createSession, hid, h]

theorem createSession_failed {localError : String} (hid : sessionId.isEmpty = false)
    (h : sim.createFromJson initRequest = .ok (.error localError)) :
    e.createSession sessionId initRequest = (.ok (.error localError), e) := by
  simp [createSession, hid, h]

theorem createSession_taken {session : sim.BattleSession} (hid : sessionId.isEmpty = false)
    (h : sim.createFromJson initRequest = .ok (.ok session)) (hmem : sessionId ∈ e.sessions) :
    e.createSession sessionId initRequest =
      (.ok (.error ("session already exists: " ++ sessionId)), e) := by
  simp [createSession, hid, h, hmem]

theorem createSession_made {session : sim.BattleSession} (hid : sessionId.isEmpty = false)
    (h : sim.createFromJson initRequest = .ok (.ok session)) (hmem : sessionId ∉ e.sessions) :
    e.createSession sessionId initRequest =
      (.ok (.ok ()), ⟨e.sessions.insert sessionId session⟩) := by
  simp [createSession, hid, h, hmem]

theorem getState_noBattle (hmem : sessionId ∈ e.sessions)
    (h : EngineLock.battleOf e sessionId = none) : e.getState sessionId =
      .ok (.error ("battle not initialized for session: " ++ sessionId)) := by
  obtain ⟨session, hsession⟩ := Finmap.mem_iff.mp hmem
  have hbattle : sim.getBattle session = none := by
    simpa [EngineLock.battleOf, hsession] using h
  simp [getState, hsession, hbattle]

theorem getState_battle {battle : sim.Battle} (h : EngineLock.battleOf e sessionId = some battle) :
    e.getState sessionId = (sim.battleAllInfoToJson battle).map .ok := by
  obtain ⟨session, hsession, hbattle⟩ := Option.bind_eq_some_iff.mp h
  simp [getState, hsession, hbattle]

end BattleEngine

namespace LockedEngine.Implements
variable {e e' : BattleEngine sim} {s s' : LockedEngine sim} {φ : ℕ → EngineStage sim}
  {φ' : EngineStage sim} {t : ℕ}

theorem init : (EngineLock.init : LockedEngine sim).Implements BattleEngine.init fun _ => .idle where
  engine := rfl
  held := Held.init rfl
  knows _ := trivial

theorem move (h : s.Implements e φ) (hengine : s'.engine = s.engine)
    (hheld : Held EngineStage.own s'.writer s'.readers (Function.update φ t φ'))
    (hknows : φ'.Knows e) : s'.Implements e (Function.update φ t φ') where
  engine := hengine.trans h.engine
  held := hheld
  knows u := by
    by_cases hut : u = t
    · rw [hut, Function.update_self]
      exact hknows
    · rw [Function.update_of_ne hut]
      exact h.knows u

theorem look (h : s.Implements e φ) (hown : φ'.own = (φ t).own) (hknows : φ'.Knows e) :
    s.Implements e (Function.update φ t φ') := h.move rfl (h.held.keep hown) hknows

theorem change (h : s.Implements e φ) (ht : (φ t).own = .exclusive) (hφ' : φ'.own = .exclusive)
    (hknows : φ'.Knows e') :
    LockedEngine.Implements e' { s with engine := e' } (Function.update φ t φ') where
  engine := rfl
  held := h.held.keep (hφ'.trans ht.symm)
  knows u := by
    by_cases hut : u = t
    · rw [hut, Function.update_self]
      exact hknows
    · rw [Function.update_of_ne hut]
      refine (h.knows u).outside ?_
      cases hu : (φ u).own with
      | none => rfl
      | shared => exact absurd hu (h.held.apart t u ht)
      | exclusive => exact absurd (h.held.unique u t hu ht) hut

theorem step {op : EngineOp sim} {x : Option (Exchange EngineCall fun _ => EngineReply)}
    (h : s.Implements e φ) (henabled : EngineLock.enabled op s = true)
    (hstep : EngineStage.Step (φ t) ⟨op, (EngineLock.exec op s).1⟩ φ' x) :
    ∃ e', (AtomicEngine.system sim).Commits x e e' ∧
      (EngineLock.exec op s).2.Implements e' (Function.update φ t φ') := by
  have hknows := h.knows t
  have hengine := h.engine
  have hcommits : ∀ {call : EngineCall} {reply : EngineReply} {e' : BattleEngine sim},
      call.apply e = (reply, e') →
      (AtomicEngine.system sim).Commits (some ⟨call, reply⟩) e e' := fun happly => ⟨rfl, happly⟩
  generalize hφ : φ t = ψ at hstep hknows
  generalize hr : (EngineLock.exec op s).1 = r at hstep
  have hown : (φ t).own = ψ.own := by rw [hφ]
  cases hstep with
  | empty sessionId initRequest hid =>
    refine ⟨e, hcommits ?_, h.look hown.symm trivial⟩
    simp [EngineCall.apply, BattleEngine.createSession, hid]
  | nonempty sessionId hid => exact ⟨e, rfl, h.look hown.symm hid⟩
  | threw sessionId initRequest exn hexn =>
    refine ⟨e, hcommits ?_, h.look hown.symm trivial⟩
    rw [EngineCall.apply, BattleEngine.createSession_threw hknows hexn]
  | failed sessionId initRequest localError herror =>
    refine ⟨e, hcommits ?_, h.look hown.symm trivial⟩
    rw [EngineCall.apply, BattleEngine.createSession_failed hknows herror]
  | made sessionId initRequest session hmade => exact ⟨e, rfl, h.look hown.symm ⟨hknows, hmade⟩⟩
  | lockMade sessionId initRequest session =>
    refine ⟨e, rfl, h.move rfl ?_ hknows⟩
    exact h.held.lock_of_enabled henabled rfl
  | taken sessionId initRequest session =>
    have hmem : sessionId ∈ e.sessions := hengine ▸ of_decide_eq_true hr
    refine ⟨e, hcommits ?_, h.look hown.symm trivial⟩
    rw [EngineCall.apply, BattleEngine.createSession_taken hknows.1 hknows.2 hmem]
  | absent sessionId initRequest session =>
    have hnot : sessionId ∉ e.sessions := hengine ▸ of_decide_eq_false hr
    exact ⟨e, rfl, h.look hown.symm ⟨hknows, hnot⟩⟩
  | emplace sessionId initRequest session =>
    refine ⟨⟨e.sessions.insert sessionId session⟩, hcommits ?_, ?_⟩
    · rw [EngineCall.apply, BattleEngine.createSession_made hknows.1.1 hknows.1.2 hknows.2]
    · rw [← hengine]
      exact h.change hown rfl trivial
  | lock => exact ⟨e, rfl, h.move rfl (h.held.lock_of_enabled henabled rfl) trivial⟩
  | missing sessionId turnRequest =>
    have hnot : sessionId ∉ e.sessions := hengine ▸ of_decide_eq_false hr
    refine ⟨e, hcommits ?_, h.look hown.symm trivial⟩
    simp [EngineCall.apply, BattleEngine.processTurn, Finmap.lookup_eq_none.mpr hnot]
  | found sessionId =>
    have hmem : sessionId ∈ e.sessions := hengine ▸ of_decide_eq_true hr
    exact ⟨e, rfl, h.look hown.symm hmem⟩
  | processTurn sessionId turnRequest response =>
    obtain ⟨session, hsession⟩ := Finmap.mem_iff.mp hknows
    have hexec : EngineLock.exec (.processTurn sessionId turnRequest) s =
        ((sim.processTurn session turnRequest).1, { s with
          engine := ⟨e.sessions.insert sessionId (sim.processTurn session turnRequest).2⟩ }) := by
      simp only [EngineLock.exec, hengine, hsession]
    rw [hexec] at hr ⊢
    refine ⟨⟨e.sessions.insert sessionId (sim.processTurn session turnRequest).2⟩, hcommits ?_,
      h.change hown rfl trivial⟩
    simp only [EngineCall.apply, BattleEngine.processTurn, hsession, ← hr]
  | erase sessionId erased =>
    refine ⟨⟨e.sessions.erase sessionId⟩, hcommits ?_, ?_⟩
    · rw [← hr, ← hengine]
      rfl
    · rw [← hengine]
      exact h.change hown rfl trivial
  | unlock => exact ⟨e, rfl, h.move rfl (h.held.unlock hown rfl) trivial⟩
  | lockShared =>
    exact ⟨e, rfl, h.move rfl (h.held.lockShared_of_enabled henabled hown rfl) trivial⟩
  | has sessionId found =>
    refine ⟨e, hcommits ?_, h.look hown.symm trivial⟩
    rw [← hr, ← hengine]
    rfl
  | stateless sessionId =>
    have hnot : sessionId ∉ e.sessions := hengine ▸ of_decide_eq_false hr
    refine ⟨e, hcommits ?_, h.look hown.symm trivial⟩
    simp [EngineCall.apply, BattleEngine.getState, Finmap.lookup_eq_none.mpr hnot]
  | sharingFound sessionId =>
    have hmem : sessionId ∈ e.sessions := hengine ▸ of_decide_eq_true hr
    exact ⟨e, rfl, h.look hown.symm hmem⟩
  | noBattle sessionId =>
    have hnone : EngineLock.battleOf e sessionId = none := by
      rw [← hengine]
      exact Option.not_isSome_iff_eq_none.mp (Bool.eq_false_iff.mp hr)
    refine ⟨e, hcommits ?_, h.look hown.symm trivial⟩
    rw [EngineCall.apply, BattleEngine.getState_noBattle hknows hnone]
  | hasBattle sessionId =>
    have hsome : (EngineLock.battleOf e sessionId).isSome = true := hengine ▸ hr
    exact ⟨e, rfl, h.look hown.symm hsome⟩
  | state sessionId state =>
    obtain ⟨battle, hbattle⟩ := Option.isSome_iff_exists.mp hknows
    have hexec : EngineLock.exec (.battleAllInfoToJson sessionId) s =
        (sim.battleAllInfoToJson battle, s) := by
      simp only [EngineLock.exec, hengine, hbattle]
    rw [hexec] at hr ⊢
    refine ⟨e, hcommits ?_, h.look hown.symm trivial⟩
    rw [EngineCall.apply, BattleEngine.getState_battle hbattle, ← hr]
  | unlockShared => exact ⟨e, rfl, h.move rfl (h.held.unlockShared hown rfl) trivial⟩

end LockedEngine.Implements

namespace EngineLock

theorem refines_atomicEngine : (AtomicEngine.system sim).Refines (engineDiscipline sim)
    (system sim) (fun _ _ => True) fun e s φ => s.Implements e φ where
  possible op s := by
    cases op with
    | isEmpty sessionId | createFromJson initRequest => exact rfl
    | _ => trivial
  code := code_mirrors
  step _ _ _ _ _ _ _ h henabled _ hstep := h.step henabled hstep

/-- Every interleaving of the methods, step by step, is one of the atomic engine. -/
theorem explained_by_atomicEngine {as : List (Action EngineCall)}
    {c : Config (LockedEngine sim) EngineCall (EngineOp sim) EngineOp.Res EngineReply}
    (h : (system sim).replay (fun _ _ => true) (Config.init init) as = some c) :
    ∃ bs d, Explains (AtomicEngine.system sim) LockedEngine.engine BattleEngine.init as c bs d :=
  refines_atomicEngine.exists_explains (fun _ _ _ _ _ _ _ _ _ => trivial)
    (fun _ _ _ h _ => h.engine.symm) .init h

end EngineLock

def Sample.throwingTurns : Simulator where
  BattleSession := Unit
  Battle := Unit
  createFromJson _ := .ok (.ok ())
  processTurn _ _ := (.error ⟨"type error"⟩, ())
  getBattle _ := some ()
  battleAllInfoToJson _ := .ok .null

/-- A turn throws inside its section while a reader and a second creation wait. -/
def Sample.turnThrows : List (Action EngineCall) :=
  let steps (t n : ℕ) : List (Action EngineCall) := List.replicate n (.run t)
  [.start (.createSession "r" .null)] ++ steps 0 6 ++ [.start (.processTurn "r" .null)] ++
    steps 1 3 ++ [.start (.getState "r"), .start (.createSession "r" .null)] ++ steps 3 2

def Sample.turnThrown : List (Action EngineCall) :=
  turnThrows ++ List.replicate 1 (.run 1) ++ List.replicate 5 (.run 2) ++ List.replicate 3 (.run 3)

def EngineReply.exception : EngineReply → Option Exn
  | .created (.error exn) | .turn (.error exn) | .state (.error exn) => some exn
  | _ => none

namespace EngineLock

open Sample in
/-- The turn's exception leaves, the session stays. -/
theorem turnThrows_explained : ∃ c bs d,
    (system throwingTurns).replay (fun _ _ => true) (Config.init init) turnThrown = some c ∧
      Explains (AtomicEngine.system throwingTurns) LockedEngine.engine BattleEngine.init
        turnThrown c bs d ∧
      (∃ reply, d.answer 1 = some reply ∧ reply.exception = some ⟨"type error"⟩) ∧
      d.shared.sessions.keys = {"r"} := by
  have hruns : ((system throwingTurns).replay (fun _ _ => true) (Config.init init)
      turnThrown).any (fun c => c.isQuiescent &&
        (c.answer 1).any (fun reply => decide (reply.exception = some ⟨"type error"⟩)) &&
        decide (c.shared.engine.sessions.keys = {"r"})) = true := by decide +kernel
  obtain ⟨c, hc, hcheck⟩ := (Option.any_eq_true _ _).mp hruns
  simp only [Bool.and_eq_true, decide_eq_true_eq] at hcheck
  obtain ⟨⟨hquiescent, hturn⟩, hsessions⟩ := hcheck
  obtain ⟨reply, hreply, hthrown⟩ := (Option.any_eq_true _ _).mp hturn
  obtain ⟨bs, d, hexplains⟩ := explained_by_atomicEngine hc
  have hstate := hexplains.settles (Config.quiescent_of_isQuiescent hquiescent)
  exact ⟨c, bs, d, hc, hexplains,
    ⟨reply, hexplains.answer_eq hreply, of_decide_eq_true hthrown⟩, by rw [hstate, hsessions]⟩

theorem waitsOnlyOutside : WaitsOnlyOutside (engineDiscipline sim) (system sim) EngineStage.own where
  possible := refines_atomicEngine.possible
  idle := rfl
  inside ψ op r φ' x s hψ hstep := by
    cases hstep with
    | lock | lockShared | lockMade _ _ _ => exact absurd rfl hψ
    | _ => rfl

/-- Also after exceptions no lock stays taken: all calls can return. -/
theorem engineCalls_finish
    {c : Config (LockedEngine sim) EngineCall (EngineOp sim) EngineOp.Res EngineReply}
    (h : (system sim).Reachable (fun _ _ => True) init c) :
    ∃ d, (system sim).ReachableFrom System.OnlyRuns c d ∧ d.Quiescent := by
  refine System.exists_quiescent (fun _ _ => trivial) (fun c hc hbusy => ?_) h
  obtain ⟨d, φ, -, hmatches, hI⟩ := refines_atomicEngine.exists_matches .init hc
  refine waitsOnlyOutside.someone_moves hmatches hI.held (fun hwriter hreaders op => ?_) hbusy
  cases op <;> simp [system, enabled, hwriter, hreaders]

open Sample in
theorem waitingEngineCalls_finish : ∃ c d,
    (system throwingTurns).Reachable (fun _ _ => True) init c ∧ c.isQuiescent = false ∧
      (system throwingTurns).ReachableFrom System.OnlyRuns c d ∧ d.Quiescent := by
  obtain ⟨c, hreach, hbusy⟩ := System.exists_reachable_of_schedule (S := system throwingTurns)
    (s := init) turnThrows (fun c => !c.isQuiescent) (by decide +kernel)
  obtain ⟨d, hrest, hd⟩ := engineCalls_finish hreach
  exact ⟨c, d, hreach, by simpa using hbusy, hrest, hd⟩

end EngineLock
end PokemonServer
