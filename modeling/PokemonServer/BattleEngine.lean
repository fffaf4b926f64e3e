import PokemonServer.Json

/-!
# BattleEngine

The sessions and the judgement of a turn's response. The simulator is not part
of the repository and is a parameter: its calls may fail or throw, and a call
that processes a turn changes only the session it is made on.
-/

namespace PokemonServer

structure Simulator where
  BattleSession : Type
  Battle : Type
  createFromJson : Json → Except Exn (Except String BattleSession)
  processTurn : BattleSession → Json → Except Exn Json × BattleSession
  getBattle : BattleSession → Option Battle
  battleAllInfoToJson : Battle → Except Exn Json

structure TurnResult where
  accepted : Bool
  response : Json
  error : String

structure BattleEngine (sim : Simulator) where
  sessions : Finmap (fun _ : String => sim.BattleSession)

namespace BattleEngine
variable {sim : Simulator}

def init : BattleEngine sim := ⟨∅⟩

def errorMessage (errors : Json) : Except Exn String :=
  match errors with
  | .array (first :: _) => do
    let errorMsg ← first.getString
    return if errorMsg.isEmpty then "battle validation failed" else errorMsg
  | _ => return "battle validation failed"

/-- The part of ProcessTurn after the simulator has answered. `value("ok", true)`
is read on every path, so it is evaluated once here. -/
def judgeTurn (response : Json) : Except Exn TurnResult := do
  let ok ← response.valueBool "ok" true
  if response.contains "errors" && ok == false then
    let error ← errorMessage (response.index "errors")
    return ⟨false, response, error⟩
  else
    return ⟨ok, response, ""⟩

def createSession (e : BattleEngine sim) (sessionId : String) (initRequest : Json) :
    Except Exn (Except String Unit) × BattleEngine sim :=
  if sessionId.isEmpty then (.ok (.error "session_id cannot be empty"), e)
  else
    match sim.createFromJson initRequest with
    | .error exn => (.error exn, e)
    | .ok (.error localError) => (.ok (.error localError), e)
    | .ok (.ok session) =>
      if sessionId ∈ e.sessions then
        (.ok (.error ("session already exists: " ++ sessionId)), e)
      else (.ok (.ok ()), ⟨e.sessions.insert sessionId session⟩)

def processTurn (e : BattleEngine sim) (sessionId : String) (turnRequest : Json) :
    Except Exn TurnResult × BattleEngine sim :=
  match e.sessions.lookup sessionId with
  | none => (.ok ⟨false, .null, "session not found: " ++ sessionId⟩, e)
  | some session =>
    ((sim.processTurn session turnRequest).1.bind judgeTurn,
      ⟨e.sessions.insert sessionId (sim.processTurn session turnRequest).2⟩)

def getState (e : BattleEngine sim) (sessionId : String) : Except Exn (Except String Json) :=
  match e.sessions.lookup sessionId with
  | none => .ok (.error ("session not found: " ++ sessionId))
  | some session =>
    match sim.getBattle session with
    | none => .ok (.error ("battle not initialized for session: " ++ sessionId))
    | some battle => (sim.battleAllInfoToJson battle).map .ok

def destroySession (e : BattleEngine sim) (sessionId : String) : Bool × BattleEngine sim :=
  (decide (sessionId ∈ e.sessions), ⟨e.sessions.erase sessionId⟩)

def hasSession (e : BattleEngine sim) (sessionId : String) : Bool := decide (sessionId ∈ e.sessions)

theorem createSession_cases (e : BattleEngine sim) (sessionId : String) (initRequest : Json) :
    (∃ session, sessionId ≠ "" ∧ sim.createFromJson initRequest = .ok (.ok session) ∧
        sessionId ∉ e.sessions ∧
        e.createSession sessionId initRequest =
          (.ok (.ok ()), ⟨e.sessions.insert sessionId session⟩)) ∨
      (∃ error, e.createSession sessionId initRequest = (.ok (.error error), e)) ∨
      ∃ exn, sim.createFromJson initRequest = .error exn ∧
        e.createSession sessionId initRequest = (.error exn, e) := by
  unfold createSession
  split
  · exact Or.inr (Or.inl ⟨_, rfl⟩)
  · rename_i hid
    split
    · rename_i exn hexn
      exact Or.inr (Or.inr ⟨exn, hexn, rfl⟩)
    · exact Or.inr (Or.inl ⟨_, rfl⟩)
    · rename_i session hsession
      split
      · exact Or.inr (Or.inl ⟨_, rfl⟩)
      · rename_i hnot
        exact Or.inl ⟨session, by simpa using hid, hsession, hnot, rfl⟩

theorem mem_processTurn {e : BattleEngine sim} {sessionId r : String} {turnRequest : Json} :
    r ∈ (e.processTurn sessionId turnRequest).2.sessions ↔ r ∈ e.sessions := by
  unfold processTurn
  split
  · rfl
  · rename_i session hsession
    have hmem : sessionId ∈ e.sessions := Finmap.mem_of_lookup_eq_some hsession
    simp only [Finmap.mem_insert]
    exact ⟨fun h => h.elim (fun he => he ▸ hmem) id, Or.inr⟩

end BattleEngine
end PokemonServer
