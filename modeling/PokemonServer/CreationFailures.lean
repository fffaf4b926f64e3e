import PokemonServer.HandlerRuns

/-!
# What a failed CreateRoom leaves behind

The handler inserts the room, then the session, then the snapshot. Its one clean-up
stands on the path where CreateSession returns false. Everything that the simulator's
constructor, GetState or the dump of the state throws leaves the handler past it.
Here the dump may throw, as nlohmann's does on a string that is not UTF-8.
-/

namespace PokemonServer
open Interleaving

namespace GameService
variable {sim : Simulator} {R : Type}

structure Admitted (cfg : ServiceConfig) (s : ServerState sim R) (q : CreateRoomRequest)
    (init : Json) : Prop where
  serving : s.rooms.isMaintaining = false
  roomy : s.rooms.rooms.keys.card < s.rooms.maxRooms
  named : q.roomId ≠ ""
  parsed : cfg.text.parse q.initJson = .ok init
  absent : q.roomId ∉ s.rooms.rooms

/-- The session of `init` cannot be made, described or dumped without an exception. -/
def Escapes (dump : Json → Except Exn String) (s : ServerState sim R) (roomId : String)
    (init : Json) : Prop :=
  (∃ exn, sim.createFromJson init = .error exn) ∨
    ∃ session battle, sim.createFromJson init = .ok (.ok session) ∧
      roomId ∉ s.engine.sessions ∧ sim.getBattle session = some battle ∧
      ((∃ exn, sim.battleAllInfoToJson battle = .error exn) ∨
        ∃ state exn, sim.battleAllInfoToJson battle = .ok state ∧ dump state = .error exn)

end GameService

/-- What gRPC reports as a status other than OK. -/
def Outcome.Fails : Outcome → Prop
  | .returned status _ => status.code ≠ .ok
  | .threw _ => True

structure SameStores {sim : Simulator} {R : Type} (s s' : ServerState sim R) : Prop where
  rooms : s'.rooms.rooms = s.rooms.rooms
  roomCount : s'.rooms.roomCount = s.rooms.roomCount
  sessions : s'.engine.sessions = s.engine.sessions
  redis : s'.redis = s.redis

theorem SameStores.refl {sim : Simulator} {R : Type} (s : ServerState sim R) : SameStores s s :=
  ⟨rfl, rfl, rfl, rfl⟩

theorem not_sameStores_of_mem {sim : Simulator} {R : Type} {s s' : ServerState sim R}
    {roomId : String} (hnot : roomId ∉ s.rooms.rooms) (hmem : roomId ∈ s'.rooms.rooms) :
    ¬ SameStores s s' :=
  fun h => hnot (h.rooms ▸ hmem)

namespace GameService
variable {sim : Simulator} {R : Type} {B : RedisBackend R} {cfg : ServiceConfig}
  {s : ServerState sim R} {q : CreateRoomRequest}

theorem run_createRoomWith_of_admitted {init : Json} (start : String → Json → Handler Outcome)
    (h : Admitted cfg s q init) :
    (createRoomWith cfg start q).run (exec B) s =
      (start q.roomId init).run (exec B) (s.withRoom q.roomId) := by
  simp [createRoomWith, exec, RoomManager.isInMaintenanceMode, RoomManager.canCreateRoom,
    RoomManager.createRoomWithId, ServerState.withRoom, h.serving, h.roomy, not_le.mpr h.roomy,
    h.named, h.parsed, h.absent]

theorem run_createRoomWith_of_not_admitted (start : String → Json → Handler Outcome)
    (h : ∀ init, ¬ Admitted cfg s q init) : ((createRoomWith cfg start q).run (exec B) s).2 = s := by
  by_cases hopen : s.rooms.isMaintaining = true
  · simp [createRoomWith, exec, RoomManager.isInMaintenanceMode, hopen]
  by_cases hroomy : s.rooms.rooms.keys.card < s.rooms.maxRooms
  swap
  · simp [createRoomWith, exec, RoomManager.isInMaintenanceMode, RoomManager.canCreateRoom, hopen,
      hroomy]
  by_cases hnamed : q.roomId = ""
  · simp [createRoomWith, exec, RoomManager.isInMaintenanceMode, RoomManager.canCreateRoom, hopen,
      hroomy, hnamed]
  cases hparsed : cfg.text.parse q.initJson with
  | error e =>
    simp [createRoomWith, exec, RoomManager.isInMaintenanceMode, RoomManager.canCreateRoom, hopen,
      hroomy, hnamed, hparsed]
  | ok init =>
    have hpresent : q.roomId ∈ s.rooms.rooms := by
      by_contra habsent
      exact h init ⟨by simpa using hopen, hroomy, hnamed, hparsed, habsent⟩
    simp [createRoomWith, exec, RoomManager.isInMaintenanceMode, RoomManager.canCreateRoom,
      RoomManager.createRoomWithId, hopen, hroomy, not_le.mpr hroomy, hnamed, hparsed, hpresent]

variable {dump : Json → Except Exn String} {roomId : String} {init : Json}

theorem run_startBattleWith_escapes (hnamed : roomId ≠ "") (h : Escapes dump s roomId init) :
    (∃ exn, ((startBattleWith dump roomId init).run (exec B) s).1 = .threw exn) ∧
      ((startBattleWith dump roomId init).run (exec B) s).2.rooms = s.rooms := by
  rcases h with ⟨exn, hexn⟩ | ⟨session, battle, hsession, habsent, hbattle, hthrows⟩
  · have hcreate : s.engine.createSession roomId init = (.error exn, s.engine) := by
      simp [BattleEngine.createSession, hnamed, hexn]
    simp [startBattleWith, exec, hcreate]
  · have hcreate : s.engine.createSession roomId init =
        (.ok (.ok ()), ⟨s.engine.sessions.insert roomId session⟩) := by
      simp [BattleEngine.createSession, hnamed, hsession, habsent]
    rcases hthrows with ⟨exn, hinfo⟩ | ⟨state, exn, hinfo, hdump⟩
    · simp [startBattleWith, exec, hcreate, BattleEngine.getState, hbattle, hinfo, Except.map]
    · simp [startBattleWith, exec, hcreate, BattleEngine.getState, hbattle, hinfo, Except.map,
        hdump]

theorem run_startBattleWith_fails (h : ¬ Escapes dump s roomId init)
    (hfails : ((startBattleWith dump roomId init).run (exec B) s).1.Fails) :
    ((startBattleWith dump roomId init).run (exec B) s).2 =
      { s with rooms := (s.rooms.closeRoom roomId).2 } := by
  rcases s.engine.createSession_cases roomId init with
    ⟨session, -, hsession, habsent, hcreate⟩ | ⟨error, hcreate⟩ | ⟨exn, hexn, -⟩
  · -- The session is made: what follows either throws or ends with status OK.
    exfalso
    cases hbattle : sim.getBattle session with
    | none =>
      simp [startBattleWith, exec, hcreate, BattleEngine.getState, hbattle, common,
        Outcome.Fails] at hfails
    | some battle =>
    cases hinfo : sim.battleAllInfoToJson battle with
    | error exn =>
      exact h (Or.inr ⟨session, battle, hsession, habsent, hbattle, Or.inl ⟨exn, hinfo⟩⟩)
    | ok state =>
    cases hdump : dump state with
    | error exn =>
      exact h (Or.inr ⟨session, battle, hsession, habsent, hbattle,
        Or.inr ⟨state, exn, hinfo, hdump⟩⟩)
    | ok data =>
      simp [startBattleWith, exec, hcreate, BattleEngine.getState, hbattle, hinfo, Except.map,
        hdump, common, Outcome.Fails] at hfails
  · simp [startBattleWith, exec, hcreate]
  · exact absurd (Or.inl ⟨exn, hexn⟩) h

/-- CreateRoom is all-or-nothing exactly when no exception can escape between the
insertion of the room and the write of its snapshot. -/
theorem createRoom_allOrNothing_iff (B : RedisBackend R) (cfg : ServiceConfig)
    (dump : Json → Except Exn String) (s : ServerState sim R) (q : CreateRoomRequest) :
    ((((createRoomWith cfg (startBattleWith dump) q).run (exec B) s).1.Fails) →
        SameStores s ((createRoomWith cfg (startBattleWith dump) q).run (exec B) s).2) ↔
      ∀ init, Admitted cfg s q init → ¬ Escapes dump s q.roomId init := by
  constructor
  · intro hsame init hadmitted hescapes
    have hescapes' : Escapes dump (s.withRoom q.roomId) q.roomId init := hescapes
    obtain ⟨⟨exn, houtcome⟩, hrooms⟩ :=
      run_startBattleWith_escapes (B := B) hadmitted.named hescapes'
    rw [run_createRoomWith_of_admitted _ hadmitted] at hsame
    refine not_sameStores_of_mem hadmitted.absent ?_ (hsame ?_)
    · rw [hrooms]
      exact Finmap.mem_insert.mpr (Or.inl rfl)
    · rw [houtcome]
      trivial
  · intro h hfails
    by_cases hadmitted : ∃ init, Admitted cfg s q init
    · obtain ⟨init, hadmitted⟩ := hadmitted
      have hcaught : ¬ Escapes dump (s.withRoom q.roomId) q.roomId init := h init hadmitted
      rw [run_createRoomWith_of_admitted _ hadmitted] at hfails ⊢
      rw [run_startBattleWith_fails hcaught hfails,
        closeRoom_withRoom s hadmitted.absent]
      exact .refl s
    · rw [run_createRoomWith_of_not_admitted _ (not_exists.mp hadmitted)]
      exact .refl s

end GameService

namespace Sample

def throwing : Simulator := { simulator with createFromJson := fun _ => .error ⟨"type error"⟩ }

end Sample

open GameService Sample in
theorem createRoom_leaks_room :
    ¬ (((createRoomWith config (startBattleWith fun j => .ok (text.dump j)) ⟨"r", emptyText⟩).run
        (exec (Store.backend scanAll)) (initState 10 ∅ : ServerState throwing Store)).1.Fails →
      SameStores (initState 10 ∅ : ServerState throwing Store)
        ((createRoomWith config (startBattleWith fun j => .ok (text.dump j)) ⟨"r", emptyText⟩).run
          (exec (Store.backend scanAll)) (initState 10 ∅ : ServerState throwing Store)).2) := by
  intro h
  have hfails := h (show Outcome.Fails (.threw ⟨"type error"⟩) from trivial)
  have hnot : "r" ∉ (initState 10 ∅ : ServerState throwing Store).rooms.rooms := Finmap.notMem_empty
  exact not_sameStores_of_mem hnot (by decide +kernel) hfails

end PokemonServer
