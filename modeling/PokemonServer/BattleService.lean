import PokemonServer.HandlerRuns
import PokemonServer.RoomProtocol

/-!
# The service as one map of battles

For calls executed one after another, `rooms_`, `sessions_`, `room_count_` and the
maintenance flag implement one finite map from room id to battle, of at most
`max_rooms` entries.
-/

namespace PokemonServer
open Interleaving GameService

structure Service (sim : Simulator) where
  battles : Finmap (fun _ : String => sim.BattleSession)
  inMaintenance : Bool

inductive Answer where
  | code (n : ℤ)
  | heartbeat (activeRooms maxCapacity : ℤ)
  | done
  deriving DecidableEq

inductive ServiceCall where
  | rpc (request : Request)
  | setMaintenanceMode (isMaintaining : Bool)

def accepts (response : Json) : Bool :=
  match response.field? "ok" with
  | some (.bool ok) => ok
  | _ => true

namespace Service
variable {sim : Simulator}

def empty : Service sim := ⟨∅, false⟩

def createRoom (text : JsonText) (maxRooms : ℕ) (q : CreateRoomRequest) (a : Service sim) :
    ℤ × Service sim :=
  if a.inMaintenance then (1, a)
  else if maxRooms ≤ a.battles.keys.card then (2, a)
  else if q.roomId = "" then (3, a)
  else
    match text.parse q.initJson with
    | .error _ => (5, a)
    | .ok init =>
      if q.roomId ∈ a.battles then (4, a)
      else
        match sim.createFromJson init with
        | .ok (.ok battle) => (0, { a with battles := a.battles.insert q.roomId battle })
        | _ => (6, a)

def sendCommand (text : JsonText) (q : GameCommand) (a : Service sim) : ℤ × Service sim :=
  match a.battles.lookup q.roomId with
  | none => (1, a)
  | some battle =>
    match text.parse q.action with
    | .error _ => (3, a)
    | .ok action =>
      match sim.processTurn battle action with
      | (.ok response, battle') =>
        if accepts response then (0, { a with battles := a.battles.insert q.roomId battle' })
        else (4, a)
      | _ => (4, a)

def destroyRoom (q : DestroyRoomRequest) (a : Service sim) : ℤ × Service sim :=
  if q.roomId ∈ a.battles then (0, { a with battles := a.battles.erase q.roomId }) else (1, a)

def step (text : JsonText) (maxRooms : ℕ) : ServiceCall → Service sim → Answer × Service sim
  | .rpc (.createRoom q), a => let r := a.createRoom text maxRooms q; (.code r.1, r.2)
  | .rpc (.sendCommand q), a => let r := a.sendCommand text q; (.code r.1, r.2)
  | .rpc (.destroyRoom q), a => let r := a.destroyRoom q; (.code r.1, r.2)
  | .rpc .getHeartbeat, a => (.heartbeat a.battles.keys.card maxRooms, a)
  | .setMaintenanceMode isMaintaining, a => (.done, { a with inMaintenance := isMaintaining })

def run (text : JsonText) (maxRooms : ℕ) :
    List ServiceCall → Service sim → List Answer × Service sim
  | [], a => ([], a)
  | call :: calls, a =>
    let r := a.step text maxRooms call
    let rest := run text maxRooms calls r.2
    (r.1 :: rest.1, rest.2)

end Service

def Outcome.answer : Outcome → Option Answer
  | .returned _ (.common code _) | .returned _ (.destroyRoom code _) => some (.code code)
  | .returned _ (.heartbeat response) =>
    some (.heartbeat response.activeRooms response.maxCapacity)
  | .threw _ => none

namespace GameService
variable {sim : Simulator} {R : Type}

def perform (cfg : ServiceConfig) (B : RedisBackend R) :
    ServiceCall → ServerState sim R → Option Answer × ServerState sim R
  | .rpc request, s =>
    let r := (handle cfg request).run (exec B) s
    (r.1.answer, r.2)
  | .setMaintenanceMode isMaintaining, s =>
    (some .done, { s with rooms := s.rooms.setMaintenanceMode isMaintaining })

def performAll (cfg : ServiceConfig) (B : RedisBackend R) :
    List ServiceCall → ServerState sim R → List (Option Answer) × ServerState sim R
  | [], s => ([], s)
  | call :: calls, s =>
    let r := perform cfg B call s
    let rest := performAll cfg B calls r.2
    (r.1 :: rest.1, rest.2)

end GameService

def WellFormedResponse (response : Json) : Prop :=
  ∃ fields, response = .object fields ∧
    (∀ v, fields.lookup "ok" = some v → ∃ ok, v = .bool ok) ∧
    ∀ v, fields.lookup "errors" = some v → ∃ errors : List String, v = .array (errors.map .string)

/-- The simulator returns, answers turns with well-formed responses, and leaves a
session alone when it rejects a turn. -/
structure Simulator.WellBehaved (sim : Simulator) : Prop where
  creation : sim.CreationReturns
  turn : ∀ session action, ∃ response, (sim.processTurn session action).1 = .ok response ∧
    WellFormedResponse response ∧
    (accepts response = false → (sim.processTurn session action).2 = session)
  state : ∀ battle exn, sim.battleAllInfoToJson battle ≠ .error exn

structure Represents {sim : Simulator} {R : Type} (maxRooms : ℕ) (s : ServerState sim R)
    (a : Service sim) : Prop where
  sessions : s.engine.sessions = a.battles
  rooms : s.rooms.rooms.keys = a.battles.keys
  active : ∀ r room, s.rooms.rooms.lookup r = some room → room.isActive = true
  count : s.rooms.roomCount = a.battles.keys.card
  maintenance : s.rooms.isMaintaining = a.inMaintenance
  maxRooms_eq : s.rooms.maxRooms = maxRooms
  card_le : a.battles.keys.card ≤ maxRooms

namespace BattleEngine

theorem errorMessage_of_strings (errors : List String) :
    ∃ msg, errorMessage (.array (errors.map .string)) = .ok msg := by
  cases errors with
  | nil => exact ⟨_, rfl⟩
  | cons first rest => exact ⟨_, rfl⟩

theorem judgeTurn_of_wellFormed {response : Json} (h : WellFormedResponse response) :
    ∃ turn, judgeTurn response = .ok turn ∧ turn.accepted = accepts response ∧
      turn.response = response := by
  obtain ⟨fields, rfl, hok, herrors⟩ := h
  have hvalue : (Json.object fields).valueBool "ok" true = .ok (accepts (.object fields)) := by
    simp only [Json.valueBool, accepts, Json.field?]
    cases hlookup : fields.lookup "ok" with
    | none => rfl
    | some v =>
      obtain ⟨ok, rfl⟩ := hok v hlookup
      rfl
  have hmessage : (Json.object fields).contains "errors" = true →
      ∃ msg, errorMessage ((Json.object fields).index "errors") = .ok msg := by
    intro hcontains
    obtain ⟨v, hv⟩ := Option.isSome_iff_exists.mp hcontains
    obtain ⟨errors, rfl⟩ := herrors v hv
    rw [Json.index, hv]
    exact errorMessage_of_strings errors
  simp only [judgeTurn, hvalue, bind, Except.bind, pure, Except.pure]
  split
  · rename_i hrejected
    simp only [Bool.and_eq_true, beq_iff_eq] at hrejected
    obtain ⟨msg, hmsg⟩ := hmessage hrejected.1
    rw [hmsg]
    exact ⟨_, rfl, hrejected.2.symm, rfl⟩
  · exact ⟨_, rfl, rfl, rfl⟩

end BattleEngine

section refinement
variable {sim : Simulator} {R : Type} {B : RedisBackend R} {cfg : ServiceConfig} {maxRooms : ℕ}
  {s : ServerState sim R} {a : Service sim}

theorem Represents.mem_rooms (h : Represents maxRooms s a) {r : String} :
    r ∈ s.rooms.rooms ↔ r ∈ a.battles := by
  rw [← Finmap.mem_keys, h.rooms, Finmap.mem_keys]

theorem Represents.withRedis (h : Represents maxRooms s a) (redis : R) :
    Represents maxRooms { s with redis := redis } a :=
  ⟨h.sessions, h.rooms, h.active, h.count, h.maintenance, h.maxRooms_eq, h.card_le⟩

theorem Represents.init (redis : R) :
    Represents maxRooms (initState maxRooms redis : ServerState sim R) Service.empty where
  sessions := rfl
  rooms := rfl
  active r room hroom := by simp [initState, RoomManager.init] at hroom
  count := rfl
  maintenance := rfl
  maxRooms_eq := rfl
  card_le := Nat.zero_le _

theorem Represents.insert (h : Represents maxRooms s a) {r : String} (hr : r ∉ a.battles)
    (hcard : a.battles.keys.card < maxRooms) (battle : sim.BattleSession) :
    Represents maxRooms { s.withRoom r with engine := ⟨s.engine.sessions.insert r battle⟩ }
      { a with battles := a.battles.insert r battle } := by
  have hkeys : (a.battles.insert r battle).keys.card = a.battles.keys.card + 1 := by
    rw [keys_insert, Finset.card_insert_of_notMem (by rwa [Finmap.mem_keys])]
  constructor
  · rw [h.sessions]
  · show (s.rooms.rooms.insert r _).keys = _
    rw [keys_insert, keys_insert, h.rooms]
  · intro r' room hroom
    by_cases hr' : r' = r
    · subst hr'
      simp only [ServerState.withRoom, Finmap.lookup_insert, Option.some.injEq] at hroom
      subst hroom
      rfl
    · simp only [ServerState.withRoom, Finmap.lookup_insert_of_ne _ hr'] at hroom
      exact h.active r' room hroom
  · show s.rooms.roomCount + 1 = _
    rw [hkeys, h.count]
    push_cast
    rfl
  · exact h.maintenance
  · exact h.maxRooms_eq
  · rw [hkeys]
    omega

theorem Represents.erase (h : Represents maxRooms s a) {r : String} (hr : r ∈ a.battles)
    (redis : R) :
    Represents maxRooms
      { rooms := (s.rooms.closeRoom r).2
        engine := (s.engine.destroySession r).2
        redis := redis }
      { a with battles := a.battles.erase r } := by
  have hroom : r ∈ s.rooms.rooms := h.mem_rooms.mpr hr
  have hkeys : (a.battles.erase r).keys.card = a.battles.keys.card - 1 := by
    rw [Finmap.keys_erase, Finset.card_erase_of_mem (by rwa [Finmap.mem_keys])]
  have hpos : 0 < a.battles.keys.card := Finset.card_pos.mpr ⟨r, Finmap.mem_keys.mpr hr⟩
  simp only [RoomManager.closeRoom, hroom, if_true, BattleEngine.destroySession]
  constructor
  · show s.engine.sessions.erase r = _
    rw [h.sessions]
  · show (s.rooms.rooms.erase r).keys = _
    rw [Finmap.keys_erase, Finmap.keys_erase, h.rooms]
  · intro r' room hroom'
    by_cases hr' : r' = r
    · subst hr'
      simp at hroom'
    · simp only [Finmap.lookup_erase_ne hr'] at hroom'
      exact h.active r' room hroom'
  · show s.rooms.roomCount - 1 = _
    rw [hkeys, h.count]
    omega
  · exact h.maintenance
  · exact h.maxRooms_eq
  · have := h.card_le
    rw [hkeys]
    omega

theorem Represents.advance (h : Represents maxRooms s a) {r : String} (hr : r ∈ a.battles)
    (battle : sim.BattleSession) :
    Represents maxRooms { s with engine := ⟨s.engine.sessions.insert r battle⟩ }
      { a with battles := a.battles.insert r battle } := by
  have hkeys : (a.battles.insert r battle).keys = a.battles.keys := by
    rw [keys_insert, Finset.insert_eq_self.mpr (Finmap.mem_keys.mpr hr)]
  constructor
  · rw [h.sessions]
  · rw [h.rooms, hkeys]
  · exact h.active
  · rw [h.count, hkeys]
  · exact h.maintenance
  · exact h.maxRooms_eq
  · rw [hkeys]
    exact h.card_le

def Simulates (cfg : ServiceConfig) (B : RedisBackend R) (maxRooms : ℕ) (call : ServiceCall)
    (s : ServerState sim R) (a : Service sim) : Prop :=
  (perform cfg B call s).1 = some (a.step cfg.text maxRooms call).1 ∧
    Represents maxRooms (perform cfg B call s).2 (a.step cfg.text maxRooms call).2

theorem BattleEngine.getState_ne_error
    (hstate : ∀ battle exn, sim.battleAllInfoToJson battle ≠ .error exn) (e : BattleEngine sim)
    (sessionId : String) (exn : Exn) : e.getState sessionId ≠ .error exn := by
  intro h
  unfold getState at h
  split at h
  · cases h
  · split at h
    · cases h
    · rename_i battle _
      cases hjson : sim.battleAllInfoToJson battle with
      | error exn' => exact hstate battle exn' hjson
      | ok state =>
        rw [hjson] at h
        cases h

theorem simulates_createRoom (hsim : sim.WellBehaved) (h : Represents maxRooms s a)
    (q : CreateRoomRequest) : Simulates cfg B maxRooms (.rpc (.createRoom q)) s a := by
  unfold Simulates
  simp only [perform, handle, Service.step, Service.createRoom]
  cases hmaint : a.inMaintenance with
  | true =>
    rw [run_createRoom_maintenance (h.maintenance.trans hmaint)]
    exact ⟨rfl, h⟩
  | false =>
  have hm : s.rooms.isMaintaining = false := h.maintenance.trans hmaint
  rw [if_neg (by simp)]
  split
  · rename_i hfull
    rw [run_createRoom_full hm (by rwa [h.maxRooms_eq, h.rooms])]
    exact ⟨rfl, h⟩
  rename_i hfull
  have hlt : s.rooms.rooms.keys.card < s.rooms.maxRooms := by
    rw [h.maxRooms_eq, h.rooms]
    exact not_le.mp hfull
  split
  · rename_i hid
    rw [run_createRoom_emptyId hm hlt hid]
    exact ⟨rfl, h⟩
  rename_i hid
  split
  · rename_i e hparse
    rw [run_createRoom_unparsable hm hlt hid hparse]
    exact ⟨rfl, h⟩
  rename_i init hparse
  split
  · rename_i hmem
    rw [run_createRoom_present hm hlt hid hparse (h.mem_rooms.mpr hmem)]
    exact ⟨rfl, h⟩
  rename_i hnot
  have hroom : q.roomId ∉ s.rooms.rooms := fun hmem => hnot (h.mem_rooms.mp hmem)
  rcases s.engine.createSession_cases q.roomId init with
    ⟨battle, -, hcreated, -, hsession⟩ | ⟨error, hsession⟩ | ⟨exn, hthrows, -⟩
  · have hinsert := h.insert hnot (not_le.mp hfull) battle
    rw [hmaint] at hinsert
    rw [run_createRoom_created hm hlt hid hparse hroom hsession, hcreated]
    split
    · rename_i exn hstate
      exact absurd hstate (BattleEngine.getState_ne_error hsim.state _ _ exn)
    · exact ⟨rfl, hinsert⟩
    · exact ⟨rfl, hinsert.withRedis _⟩
  · rw [run_createRoom_sessionFails hm hlt hid hparse hroom hsession]
    have hrejected : ∀ battle, sim.createFromJson init ≠ .ok (.ok battle) := by
      intro battle hbattle
      have hsess : q.roomId ∉ s.engine.sessions := by rwa [h.sessions]
      simp [BattleEngine.createSession, hid, hbattle, hsess] at hsession
    split
    · rename_i battle hbattle
      exact absurd hbattle (hrejected battle)
    · exact ⟨rfl, h⟩
  · exact absurd hthrows (hsim.creation init exn)

theorem simulates_sendCommand (hsim : sim.WellBehaved) (h : Represents maxRooms s a)
    (q : GameCommand) : Simulates cfg B maxRooms (.rpc (.sendCommand q)) s a := by
  unfold Simulates
  simp only [perform, handle, Service.step, Service.sendCommand]
  split
  · rename_i habsent
    have hroom : q.roomId ∉ s.rooms.rooms := fun hmem =>
      Finmap.lookup_eq_none.mp habsent (h.mem_rooms.mp hmem)
    rw [run_sendCommand_absent hroom]
    exact ⟨rfl, h⟩
  rename_i battle hbattle
  obtain ⟨room, hroom⟩ := Finmap.mem_iff.mp (h.mem_rooms.mpr (Finmap.mem_of_lookup_eq_some hbattle))
  have hactive := h.active _ _ hroom
  split
  · rename_i e hparse
    rw [run_sendCommand_unparsable hroom hactive hparse]
    exact ⟨rfl, h⟩
  rename_i action hparse
  obtain ⟨response, hresponse, hwell, hsame⟩ := hsim.turn battle action
  obtain ⟨turn, hturn, haccepted, hjson⟩ := BattleEngine.judgeTurn_of_wellFormed hwell
  have hsession : s.engine.sessions.lookup q.roomId = some battle := by rw [h.sessions, hbattle]
  have hprocess : s.engine.processTurn q.roomId action =
      (.ok turn, ⟨s.engine.sessions.insert q.roomId (sim.processTurn battle action).2⟩) := by
    simp [BattleEngine.processTurn, hsession, hresponse, Except.bind, hturn]
  have hpair : sim.processTurn battle action = (.ok response, (sim.processTurn battle action).2) := by
    rw [← hresponse]
  rw [hpair]
  cases haccepts : accepts response with
  | true =>
    rw [run_sendCommand_accepted hroom hactive hparse hprocess (haccepted.trans haccepts)]
    have hadvance := h.advance (Finmap.mem_of_lookup_eq_some hbattle) (sim.processTurn battle action).2
    simp only [haccepts, if_true]
    exact ⟨rfl, hadvance.withRedis _⟩
  | false =>
    rw [run_sendCommand_rejected hroom hactive hparse hprocess (haccepted.trans haccepts),
      hsame haccepts, insert_eq_self hsession]
    simp only [haccepts, Bool.false_eq_true, if_false]
    exact ⟨rfl, h⟩

theorem simulates_destroyRoom (h : Represents maxRooms s a) (q : DestroyRoomRequest) :
    Simulates cfg B maxRooms (.rpc (.destroyRoom q)) s a := by
  unfold Simulates
  simp only [perform, handle, Service.step, Service.destroyRoom]
  split
  · rename_i hmem
    rw [run_destroyRoom_present (h.mem_rooms.mpr hmem)]
    exact ⟨rfl, h.erase hmem _⟩
  · rename_i hnot
    rw [run_destroyRoom_absent fun hmem => hnot (h.mem_rooms.mp hmem)]
    exact ⟨rfl, h⟩

theorem simulates_getHeartbeat (h : Represents maxRooms s a) :
    Simulates cfg B maxRooms (.rpc .getHeartbeat) s a := by
  unfold Simulates
  simp only [perform, handle, Service.step]
  rw [run_getHeartbeat]
  refine ⟨?_, h.withRedis _⟩
  rw [Outcome.answer, h.count, h.maxRooms_eq]

theorem simulates_setMaintenanceMode (h : Represents maxRooms s a) (isMaintaining : Bool) :
    Simulates cfg B maxRooms (.setMaintenanceMode isMaintaining) s a :=
  ⟨rfl, h.sessions, h.rooms, h.active, h.count, rfl, h.maxRooms_eq, h.card_le⟩

theorem simulates_step (hsim : sim.WellBehaved) (h : Represents maxRooms s a) (call : ServiceCall) :
    Simulates cfg B maxRooms call s a := by
  cases call with
  | rpc request =>
    cases request with
    | createRoom q => exact simulates_createRoom hsim h q
    | sendCommand q => exact simulates_sendCommand hsim h q
    | destroyRoom q => exact simulates_destroyRoom h q
    | getHeartbeat => exact simulates_getHeartbeat h
  | setMaintenanceMode isMaintaining => exact simulates_setMaintenanceMode h isMaintaining

theorem simulates_run (hsim : sim.WellBehaved) (h : Represents maxRooms s a)
    (calls : List ServiceCall) :
    (performAll cfg B calls s).1 = (a.run cfg.text maxRooms calls).1.map some ∧
      Represents maxRooms (performAll cfg B calls s).2 (a.run cfg.text maxRooms calls).2 := by
  induction calls generalizing s a with
  | nil => exact ⟨rfl, h⟩
  | cons call calls ih =>
    obtain ⟨hanswer, hnext⟩ := simulates_step hsim h call
    obtain ⟨hanswers, hfinal⟩ := ih hnext
    refine ⟨?_, hfinal⟩
    rw [performAll, Service.run, List.map_cons]
    rw [hanswer, hanswers]

end refinement

/-- Calls executed one after another from an empty server answer as one map of at
most `maxRooms` battles does. -/
theorem performAll_refines {sim : Simulator} {R : Type} (hsim : sim.WellBehaved)
    (cfg : ServiceConfig) (B : RedisBackend R) (maxRooms : ℕ) (redis : R)
    (calls : List ServiceCall) :
    let s := performAll cfg B calls (initState maxRooms redis : ServerState sim R)
    let a := Service.empty.run cfg.text maxRooms calls
    s.1 = a.1.map some ∧ Represents maxRooms s.2 a.2 :=
  simulates_run hsim (Represents.init redis) calls

namespace Sample

theorem simulator_wellBehaved : simulator.WellBehaved where
  creation init exn h := by cases h
  turn session action := by
    refine ⟨_, rfl, ⟨_, rfl, fun v hv => ?_, fun v hv => ?_⟩, fun h => ?_⟩
    · exact ⟨true, (Option.some.inj hv).symm⟩
    · cases hv
    · cases h
  state battle exn h := by cases h

def serviceCalls : List ServiceCall :=
  [.rpc (create "r"), .rpc (create "r"), .rpc (command "r"), .rpc (create "s"), .rpc (create "t"),
    .rpc (destroy "r"), .rpc .getHeartbeat, .rpc (command "r"), .setMaintenanceMode true,
    .rpc (create "t")]

end Sample

open Sample in
theorem performAll_refines_serviceCalls :
    let s := performAll config (Store.backend scanAll) serviceCalls
      (initState 2 ∅ : ServerState simulator Store)
    let a := (Service.empty : Service simulator).run config.text 2 serviceCalls
    a.1 = [.code 0, .code 4, .code 0, .code 0, .code 2, .code 0, .heartbeat 1 2, .code 1, .done,
        .code 1] ∧ s.1 = a.1.map some ∧ Represents 2 s.2 a.2 :=
  ⟨by decide +kernel, performAll_refines simulator_wellBehaved config (Store.backend scanAll) 2 ∅
    serviceCalls⟩

end PokemonServer
