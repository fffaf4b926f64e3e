import PokemonServer.RoomSession
import PokemonServer.SessionHistory

/-!
# What a command meets between its two steps

SendCommand checks the room under one lock and looks up the session under another.
Creation publishes the room before the session, and destruction removes it before
the session. A command whose turn is processed before the one or after the other is
answered as if its action were invalid.
-/

namespace PokemonServer
open Interleaving RoomProtocol

variable {sim : Simulator} {R : Type} {B : RedisBackend R} {cfg : ServiceConfig}

namespace GameService

theorem judged_ne_notFound {result : Except Exn Json} {error : String} :
    result.bind BattleEngine.judgeTurn ≠ .ok ⟨false, .null, error⟩ := by
  intro h
  cases result with
  | error exn => cases h
  | ok response =>
    obtain rfl : .null = response := BattleEngine.judgeTurn_response h
    cases h

def RoomsActive (s : ServerState sim R) : Prop :=
  ∀ r room, s.rooms.rooms.lookup r = some room → room.isActive = true

theorem roomsActive_exec (op : ServerOp) {s : ServerState sim R} (h : RoomsActive s) :
    RoomsActive (exec B op s).2 := by
  cases op with
  | createRoomWithId roomId roomName maxPlayers =>
    rcases s.rooms.createRoomWithId_cases roomId roomName maxPlayers with
      ⟨-, hm, -⟩ | ⟨-, -, -, -, hm⟩
    · simp only [exec, hm]
      exact h
    · intro r room hroom
      simp only [exec, hm] at hroom
      by_cases hr : r = roomId
      · rw [hr, Finmap.lookup_insert] at hroom
        cases hroom
        rfl
      · rw [Finmap.lookup_insert_of_ne _ hr] at hroom
        exact h r room hroom
  | closeRoom roomId =>
    intro r room hroom
    simp only [exec, RoomManager.closeRoom] at hroom
    split at hroom
    · by_cases hr : r = roomId
      · rw [hr, Finmap.lookup_erase] at hroom
        cases hroom
      · rw [Finmap.lookup_erase_ne hr] at hroom
        exact h r room hroom
    · exact h r room hroom
  | redis op => cases op <;> exact h
  | _ => exact h

theorem redis_issues_redis {α : Type} (p : RedisClient.Client α) :
    (redis p).Issues fun op => ∃ o, op = .redis o := by
  induction p with
  | ret a => trivial
  | call o next ih => exact ⟨⟨o, rfl⟩, fun r => ih r⟩

def roomNotFound : Outcome := common .notFound "Room not found" 1 "Room not found"

/-- The way of a command whose action parses, up to the end of its ProcessTurn. -/
theorem path_sendCommand {q : GameCommand} {action : Json} {es : List (Exchange ServerOp ServerOp.Res)}
    {p : Handler Outcome} (hparse : cfg.text.parse q.action = .ok action)
    (h : Path (sendCommand cfg q) es p) :
    es = [] ∨ (∃ room, es = [⟨.getRoomStatus q.roomId, room⟩] ∧
        ∀ outcome, p = .ret outcome → outcome = roomNotFound ∨
          ∃ room', room = some room' ∧ room'.isActive = false) ∨
      ∃ room result fs, es = ⟨.getRoomStatus q.roomId, room⟩ ::
          ⟨.processTurn q.roomId action, result⟩ :: fs ∧
        (∀ x ∈ fs, ∃ op, x.op = .redis op) ∧
        ∀ turn, result = .ok turn → turn.accepted = false → fs = [] ∧ p = .ret
          (common .invalidArgument ("Battle action validation failed: " ++ turn.error) 4
            (rejectionMessage cfg.text turn.error turn.response)) := by
  cases h with
  | nil => exact Or.inl rfl
  | @cons _ _ room es _ h =>
  right
  cases room with
  | none =>
    obtain ⟨rfl, rfl⟩ := Path.ret_iff.mp h
    refine Or.inl ⟨none, rfl, fun outcome houtcome => ?_⟩
    cases houtcome
    exact Or.inl rfl
  | some room =>
  cases hactive : room.isActive with
  | false =>
    simp only [Prog.bind, hactive, Bool.not_false, if_true] at h
    obtain ⟨rfl, rfl⟩ := Path.ret_iff.mp h
    exact Or.inl ⟨some room, rfl, fun outcome _ => Or.inr ⟨room, rfl, hactive⟩⟩
  | true =>
  simp only [Prog.bind, hactive, hparse, Bool.not_true, Bool.false_eq_true, if_false,
    Prog.op_bind] at h
  cases h with
  | nil => exact Or.inl ⟨some room, rfl, fun outcome houtcome => by cases houtcome⟩
  | @cons _ _ result fs _ h =>
  refine Or.inr ⟨some room, result, fs, rfl, ?_⟩
  match result with
  | .error exn =>
    obtain ⟨rfl, rfl⟩ := Path.ret_iff.mp h
    exact ⟨by simp, fun turn hturn => by cases hturn⟩
  | .ok ⟨false, response, error⟩ =>
    obtain ⟨rfl, rfl⟩ := Path.ret_iff.mp h
    refine ⟨by simp, fun turn hturn _ => ?_⟩
    cases hturn
    exact ⟨rfl, rfl⟩
  | .ok ⟨true, response, error⟩ =>
    refine ⟨?_, fun turn hturn hrejected => ?_⟩
    · have hissues : (redis (RedisClient.setRoomData q.roomId (cfg.text.dump response)) >>= fun _ =>
          (.ret (common .ok "" 0 (commandMessage cfg.text q.playerId response)) :
            Handler Outcome)).Issues fun op => ∃ o, op = .redis o :=
        (redis_issues_redis _).bind fun _ => trivial
      exact h.issued hissues
    · cases hturn
      cases hrejected

end GameService

open GameService

/-- The action of thread `t` was handed to the session that `r` had at that moment. -/
def HandedToSession (sim : Simulator) (log : ServerLog) (t : ℕ) (r : String) (action : Json) :
    Prop :=
  ∃ later earlier session,
    log = later ++ ⟨t, .processTurn r action,
      (sim.processTurn session action).1.bind BattleEngine.judgeTurn⟩ :: earlier ∧
    sessionOf sim r earlier = some session

/-- Every answered command whose action parses found no room or reached the session. -/
def CommandsServed (cfg : ServiceConfig) (c : ServiceConfiguration sim R) : Prop :=
  ∀ t q outcome action, c.pool[t]? = some ⟨.sendCommand q, .ret outcome⟩ →
    cfg.text.parse q.action = .ok action →
    outcome = roomNotFound ∨ HandedToSession sim c.log t q.roomId action

/-- Every turn on a room was processed after a successful CreateSession of that room
with no DestroySession of it in between. -/
def commandsInTime : ServerLog → Bool
  | [] => true
  | ⟨_, .processTurn r _, _⟩ :: es => sessionOpen r es && commandsInTime es
  | _ :: es => commandsInTime es

theorem sessionOpen_of_commandsInTime {log later earlier : ServerLog} {t : ℕ} {r : String}
    {action : Json} {result : Except Exn TurnResult} (h : commandsInTime log = true)
    (hlog : log = later ++ ⟨t, .processTurn r action, result⟩ :: earlier) :
    sessionOpen r earlier = true := by
  subst hlog
  induction later with
  | nil =>
    simp only [List.nil_append, commandsInTime, Bool.and_eq_true] at h
    exact h.1
  | cons e later ih =>
    obtain ⟨u, op, res⟩ := e
    cases op with
    | processTurn r' action' =>
      simp only [List.cons_append, commandsInTime, Bool.and_eq_true] at h
      exact ih h.2
    | _ => exact ih h

theorem exists_late_of_not_commandsInTime {log : ServerLog} (h : commandsInTime log = false) :
    ∃ later t r action result earlier,
      log = later ++ ⟨t, .processTurn r action, result⟩ :: earlier ∧
        sessionOpen r earlier = false := by
  induction log with
  | nil => cases h
  | cons e es ih =>
    have hrest : commandsInTime es = false → ∃ later t r action result earlier,
        e :: es = later ++ ⟨t, .processTurn r action, result⟩ :: earlier ∧
          sessionOpen r earlier = false := by
      intro hes
      obtain ⟨later, t, r, action, result, earlier, rfl, hclosed⟩ := ih hes
      exact ⟨e :: later, t, r, action, result, earlier, rfl, hclosed⟩
    obtain ⟨u, op, res⟩ := e
    cases op with
    | processTurn r action =>
      simp only [commandsInTime, Bool.and_eq_false_iff] at h
      rcases h with hclosed | hes
      · exact ⟨[], u, r, action, res, es, rfl, hclosed⟩
      · exact hrest hes
    | _ => exact hrest h

section runs
variable {ok : ServiceConfiguration sim R → Action Request → Prop} {maxRooms : ℕ} {redis : R}
  {c : ServiceConfiguration sim R}
  (h : (GameService.system sim cfg B).Reachable ok (GameService.initState maxRooms redis) c)
include h

theorem processTurn_of_log {later earlier : ServerLog} {t : ℕ} {r : String} {action : Json}
    {result : Except Exn TurnResult}
    (hlog : c.log = later ++ ⟨t, .processTurn r action, result⟩ :: earlier) :
    (∃ session, sessionOf sim r earlier = some session ∧
        result = (sim.processTurn session action).1.bind BattleEngine.judgeTurn) ∨
      sessionOpen r earlier = false ∧ result = .ok ⟨false, .null, "session not found: " ++ r⟩ := by
  obtain ⟨c', req, next, hreach, rfl, -, -, hres⟩ := System.exists_before h hlog
  have hresult : result = (c'.shared.engine.processTurn r action).1 := hres
  have hlookup := lookup_eq_sessionOf hreach r
  have hopen := sessionOpen_iff_mem hreach r
  cases hsession : c'.shared.engine.sessions.lookup r with
  | none =>
    refine Or.inr ⟨?_, by rw [hresult, BattleEngine.processTurn, hsession]⟩
    rw [← Bool.not_eq_true, hopen]
    exact Finmap.lookup_eq_none.mp hsession
  | some session =>
    refine Or.inl ⟨session, hlookup ▸ hsession, ?_⟩
    rw [hresult, BattleEngine.processTurn, hsession]

theorem commandsServed_of_commandsInTime (hin : commandsInTime c.log = true) :
    CommandsServed cfg c := by
  intro t q outcome action hpool hparse
  have hpath := (System.path_of_reachable h).2 t _ hpool
  have hactive := System.invariant_of_reachable (I := RoomsActive)
    (fun r room hroom => by simp [GameService.initState, RoomManager.init] at hroom)
    (fun op s hs => roomsActive_exec op hs) h
  rcases path_sendCommand hparse hpath with hnil | ⟨room, hes, hend⟩ | ⟨room, result, fs, hes, -, -⟩
  · rw [hnil] at hpath
    cases hpath
  · rcases hend outcome rfl with hout | ⟨room', rfl, hinactive⟩
    · exact Or.inl hout
    · -- The check saw an inactive room: there is none in any state of the run.
      exfalso
      have hmem : (⟨.getRoomStatus q.roomId, some room'⟩ : Exchange ServerOp ServerOp.Res) ∈
          history t c.log := by simp [hes]
      obtain ⟨s', hs', hres⟩ := hactive.2 _ (mem_history.mp hmem)
      have hlookup : s'.rooms.rooms.lookup q.roomId = some room' := hres.symm
      rw [hs' q.roomId room' hlookup] at hinactive
      cases hinactive
  · right
    have hmem : (⟨.processTurn q.roomId action, result⟩ : Exchange ServerOp ServerOp.Res) ∈
        history t c.log := by simp [hes]
    obtain ⟨later, earlier, hlog⟩ := List.append_of_mem (mem_history.mp hmem)
    rcases processTurn_of_log h hlog with ⟨session, hsession, rfl⟩ | ⟨hclosed, -⟩
    · exact ⟨later, earlier, session, hlog, hsession⟩
    · rw [sessionOpen_of_commandsInTime hin hlog] at hclosed
      cases hclosed

theorem not_commandsServed_of_late {later earlier : ServerLog} {t : ℕ} {r : String} {action : Json}
    {result : Except Exn TurnResult}
    (hlog : c.log = later ++ ⟨t, .processTurn r action, result⟩ :: earlier)
    (hclosed : sessionOpen r earlier = false) : ¬ CommandsServed cfg c := by
  intro hserved
  have hresult : result = .ok ⟨false, .null, "session not found: " ++ r⟩ := by
    rcases processTurn_of_log h hlog with ⟨session, hsession, -⟩ | ⟨-, hresult⟩
    · obtain ⟨c', -, -, hreach, rfl, -, -, -⟩ := System.exists_before h hlog
      have hmem := Finmap.mem_of_lookup_eq_some ((lookup_eq_sessionOf hreach r).trans hsession)
      rw [(sessionOpen_iff_mem hreach r).mpr hmem] at hclosed
      cases hclosed
    · exact hresult
  subst hresult
  have hevent : ⟨t, .processTurn r action, .ok ⟨false, .null, "session not found: " ++ r⟩⟩ ∈
      c.log := hlog ▸ List.mem_append_right _ List.mem_cons_self
  obtain ⟨⟨req, prog⟩, hpool, hissued⟩ :=
    (issued_of_reachable (J := fun _ => True) (fun _ _ => trivial) h).1 _ hevent
  cases hissued with
  | @processTurn q _ hparse =>
  have hpath := (System.path_of_reachable h).2 t _ hpool
  have hmem := mem_history.mpr hevent
  rcases path_sendCommand hparse hpath with
    hnil | ⟨room, hes, -⟩ | ⟨room, result, fs, hes, hfs, hend⟩
  · simp [hnil] at hmem
  · simp [hes] at hmem
  · have hresult : result = .ok ⟨false, .null, "session not found: " ++ q.roomId⟩ := by
      rw [hes, List.mem_cons, List.mem_cons] at hmem
      rcases hmem with hmem | hmem | hmem
      · cases hmem
      · cases hmem
        rfl
      · obtain ⟨op, hop⟩ := hfs _ hmem
        cases hop
    obtain ⟨rfl, rfl⟩ := hend _ hresult rfl
    rcases hserved t q _ action hpool hparse with hout | ⟨later', earlier', session, hlog', -⟩
    · simp [common, roomNotFound] at hout
    · have hmem' := mem_history.mpr
        (hlog' ▸ List.mem_append_right later' List.mem_cons_self : _ ∈ c.log)
      rw [hes, List.mem_cons, List.mem_singleton] at hmem'
      rcases hmem' with hmem' | hmem'
      · cases hmem'
      · rw [hresult, Exchange.mk.injEq] at hmem'
        exact judged_ne_notFound (eq_of_heq hmem'.2)

theorem commandsInTime_of_commandsServed (hserved : CommandsServed cfg c) :
    commandsInTime c.log = true := by
  by_contra hlate
  obtain ⟨later, t, r, action, result, earlier, hlog, hclosed⟩ :=
    exists_late_of_not_commandsInTime (by simpa using hlate)
  exact not_commandsServed_of_late h hlog hclosed hserved

end runs

/-- Room `r` is whole, or it is being destroyed and has its session still. -/
def Playable (cfg : ServiceConfig) (c : ServiceConfiguration sim R) (r : String) : Prop :=
  r ∈ c.shared.rooms.rooms ∧
      ¬ (Protocol.threads ((roomProtocol cfg).view c).phases (Half r)).Nonempty ∨
    (Protocol.threads ((roomProtocol cfg).view c).phases (Closing r)).Nonempty

theorem sessionOpen_iff_playable (hsim : sim.CreationReturns) {maxRooms : ℕ} {redis : R}
    {c : ServiceConfiguration sim R}
    (h : (GameService.system sim cfg B).Reachable
      ((roomProtocol cfg).guarded (fun _ => True) closesWholeRooms)
      (GameService.initState maxRooms redis) c) (r : String) :
    sessionOpen r c.log = true ↔ Playable cfg c r := by
  obtain ⟨-, hview⟩ := tracks hsim h
  have hlife := roomLife_of_viewReachable (r := r) (fun _ _ _ _ _ hg => hg r) hview
  have hlive : r ∈ c.shared.rooms.rooms ∧
      ¬ (Protocol.threads ((roomProtocol cfg).view c).phases (Half r)).Nonempty ↔
    r ∈ c.shared.engine.sessions ∧
      ¬ (Protocol.threads ((roomProtocol cfg).view c).phases (Closing r)).Nonempty := hlife.live_iff
  rw [sessionOpen_iff_mem h, Playable, hlive]
  constructor
  · intro hsession
    by_cases hc : (Protocol.threads ((roomProtocol cfg).view c).phases (Closing r)).Nonempty
    · exact Or.inr hc
    · exact Or.inl ⟨hsession, hc⟩
  · rintro (⟨hsession, -⟩ | hc)
    · exact hsession
    · exact hlife.session_of_closing hc

/-- In every run, the commands see no half-created or half-destroyed room exactly when
each turn falls between the CreateSession and the DestroySession of its room. If no
half-created room is closed, this is while the room is playable. -/
theorem commandsServed_iff_commandsInTime {maxRooms : ℕ} {redis : R}
    {c : ServiceConfiguration sim R}
    (h : (GameService.system sim cfg B).Reachable (fun _ _ => True)
      (GameService.initState maxRooms redis) c) :
    (CommandsServed cfg c ↔ commandsInTime c.log = true) ∧
      (sim.CreationReturns → (GameService.system sim cfg B).Reachable
          ((roomProtocol cfg).guarded (fun _ => True) closesWholeRooms)
          (GameService.initState maxRooms redis) c →
        ∀ r, sessionOpen r c.log = true ↔ Playable cfg c r) :=
  ⟨⟨commandsInTime_of_commandsServed h, commandsServed_of_commandsInTime h⟩,
    fun hsim hguarded => sessionOpen_iff_playable hsim hguarded⟩

def Sample.commandInsideCreate : List (Action Request) :=
  begin (create "r") ++ begin (command "r") ++ calls 0 3 ++ calls 1 2

open Sample in
theorem command_sees_half_created_room :
    ∃ c, service.Reachable (fun _ _ => True) state c ∧ ¬ CommandsServed config c := by
  obtain ⟨c, hreach, hcheck⟩ := System.exists_reachable_of_schedule (S := service) (s := state)
    commandInsideCreate (fun c => !commandsInTime c.log) (by decide +kernel)
  refine ⟨c, hreach, fun hserved => ?_⟩
  rw [commandsInTime_of_commandsServed hreach hserved] at hcheck
  cases hcheck

def Sample.commandAfterCreate : List (Action Request) :=
  begin (create "r") ++ begin (command "r") ++ calls 0 4 ++ calls 1 2 ++ calls 0 2 ++ calls 1 2

open Sample in
theorem commandsServed_after_commandAfterCreate :
    ∃ c, service.Reachable (fun _ _ => True) state c ∧ c.log ≠ [] ∧ CommandsServed config c ∧
      Playable config c "r" := by
  obtain ⟨c, hreach, hcheck⟩ := Protocol.exists_guarded_of_replay (S := service) (s := state)
    (P := roomProtocol config) (fun _ => true) (closesWholeRoomsTest config) (fun _ _ => trivial)
    (fun _ _ _ _ => closesWholeRooms_of_test) commandAfterCreate
    (fun c => commandsInTime c.log && sessionOpen "r" c.log && decide (c.log.length = 10))
    (by decide +kernel)
  simp only [Bool.and_eq_true, decide_eq_true_eq] at hcheck
  obtain ⟨⟨hin, hopen⟩, hlength⟩ := hcheck
  have hrun : service.Reachable (fun _ _ => True) state c := hreach.mono fun _ _ _ => trivial
  obtain ⟨hserved, hplayable⟩ := commandsServed_iff_commandsInTime hrun
  refine ⟨c, hrun, ?_, hserved.mpr hin, ?_⟩
  · rintro hnil
    rw [hnil] at hlength
    cases hlength
  · exact (hplayable (fun _ _ h => by cases h) hreach "r").mp hopen

end PokemonServer
