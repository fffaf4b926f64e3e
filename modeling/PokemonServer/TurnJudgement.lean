import PokemonServer.HandlerRuns

/-!
# What ProcessTurn and SendCommand make of a turn's response

ProcessTurn reads the simulator's JSON outside any try block. It returns for the
responses whose `ok` and `errors` have the kinds it reads, and throws for all others.
A rejection carries a text except when the response says `"ok": false` and no more.
-/

namespace PokemonServer
open Interleaving GameService

namespace Json

/-- An object whose `ok` is absent or a boolean and whose first error, if it says
`"ok": false` and lists errors, is a string. -/
def ReadableTurn (response : Json) : Prop :=
  ∃ fields, response = .object fields ∧
    (∀ v, fields.lookup "ok" = some v → ∃ ok, v = .bool ok) ∧
    (fields.lookup "ok" = some (.bool false) → ∀ first rest,
      fields.lookup "errors" = some (.array (first :: rest)) → ∃ message, first = .string message)

/-- A readable response whose first error is a string also when it is not read. -/
def IsTurn (response : Json) : Prop :=
  ∃ fields, response = .object fields ∧
    (∀ v, fields.lookup "ok" = some v → ∃ ok, v = .bool ok) ∧
    ∀ first rest,
      fields.lookup "errors" = some (.array (first :: rest)) → ∃ message, first = .string message

def RejectsSilently (response : Json) : Prop :=
  response.field? "ok" = some (.bool false) ∧ response.contains "errors" = false

theorem valueBool_object {fields : List (String × Json)} {key : String} {default b : Bool} :
    (Json.object fields).valueBool key default = .ok b ↔
      fields.lookup key = some (.bool b) ∨ fields.lookup key = none ∧ b = default := by
  rw [valueBool]
  cases hlookup : fields.lookup key with
  | none => simp [eq_comm]
  | some v => cases v <;> simp [getBool]

end Json

namespace BattleEngine
variable {sim : Simulator}

theorem errorMessage_ne_empty {errors : Json} {message : String}
    (h : errorMessage errors = .ok message) : message ≠ "" := by
  rintro rfl
  unfold errorMessage at h
  split at h
  · rename_i first rest
    cases hfirst : first.getString with
    | error exn =>
      rw [hfirst] at h
      cases h
    | ok text =>
      rw [hfirst] at h
      by_cases hempty : text = ""
      · simp [bind, Except.bind, pure, Except.pure, hempty] at h
      · simp [bind, Except.bind, pure, Except.pure, hempty] at h
  · simp [pure, Except.pure] at h

theorem errorMessage_ok_iff {errors : Json} :
    (∃ message, errorMessage errors = .ok message) ↔
      ∀ first rest, errors = .array (first :: rest) → ∃ message, first = .string message := by
  constructor
  · rintro ⟨message, hmessage⟩ first rest rfl
    cases first with
    | string text => exact ⟨text, rfl⟩
    | _ => cases hmessage
  · intro h
    unfold errorMessage
    split
    · rename_i first rest
      obtain ⟨text, rfl⟩ := h first rest rfl
      exact ⟨_, rfl⟩
    · exact ⟨_, rfl⟩

theorem judgeTurn_eq_ok_iff {response : Json} {turn : TurnResult} :
    judgeTurn response = .ok turn ↔ ∃ ok, response.valueBool "ok" true = .ok ok ∧
      ((response.contains "errors" = true ∧ ok = false ∧
          ∃ error, errorMessage (response.index "errors") = .ok error ∧
            turn = ⟨false, response, error⟩) ∨
        ((response.contains "errors" = false ∨ ok = true) ∧ turn = ⟨ok, response, ""⟩)) := by
  cases hok : response.valueBool "ok" true with
  | error exn => simp [judgeTurn, hok, bind, Except.bind]
  | ok ok =>
    simp only [judgeTurn, hok, bind, Except.bind, pure, Except.pure, Except.ok.injEq,
      exists_eq_left']
    by_cases herrors : response.contains "errors" = true ∧ ok = false
    · obtain ⟨hcontains, rfl⟩ := herrors
      cases hmessage : errorMessage (response.index "errors") with
      | error exn => simp [hcontains]
      | ok error => simp [hcontains, eq_comm]
    · have hread : (response.contains "errors" && ok == false) = false := by
        simpa [Bool.and_eq_false_iff] using herrors
      have hplain : response.contains "errors" = false ∨ ok = true := by
        cases hcontains : response.contains "errors" <;> simp_all
      simp only [hread, Bool.false_eq_true, if_false, Except.ok.injEq, hplain, true_and]
      constructor
      · rintro rfl
        exact Or.inr rfl
      · rintro (⟨hcontains, hfalse, -⟩ | rfl)
        · exact absurd ⟨hcontains, hfalse⟩ herrors
        · rfl

theorem judgeTurn_ok_iff {response : Json} :
    (∃ turn, judgeTurn response = .ok turn) ↔ response.ReadableTurn := by
  constructor
  · rintro ⟨turn, hturn⟩
    obtain ⟨ok, hok, hcases⟩ := judgeTurn_eq_ok_iff.mp hturn
    cases response with
    | object fields =>
      refine ⟨fields, rfl, ?_, ?_⟩
      · intro v hv
        rcases Json.valueBool_object.mp hok with hlookup | ⟨hlookup, -⟩
        · exact ⟨ok, Option.some.inj (hv.symm.trans hlookup)⟩
        · rw [hlookup] at hv
          cases hv
      · intro hfalse first rest herrors
        have hcontains : (Json.object fields).contains "errors" = true := by
          rw [Json.contains, Json.field?, herrors]
          rfl
        have hnot : ok = false := by
          have hvalue : (Json.object fields).valueBool "ok" true = .ok false :=
            Json.valueBool_object.mpr (Or.inl hfalse)
          rw [hok] at hvalue
          cases hvalue
          rfl
        rcases hcases with ⟨-, -, error, herror, -⟩ | ⟨hplain, -⟩
        · rw [Json.index, Json.field?, herrors] at herror
          exact errorMessage_ok_iff.mp ⟨error, herror⟩ first rest rfl
        · rw [hcontains, hnot] at hplain
          rcases hplain with h | h <;> cases h
    | _ => cases hok
  · rintro ⟨fields, rfl, hok, herrors⟩
    obtain ⟨ok, hvalue⟩ : ∃ ok, (Json.object fields).valueBool "ok" true = .ok ok := by
      cases hlookup : fields.lookup "ok" with
      | none => exact ⟨true, Json.valueBool_object.mpr (Or.inr ⟨hlookup, rfl⟩)⟩
      | some v =>
        obtain ⟨ok, rfl⟩ := hok v hlookup
        exact ⟨ok, Json.valueBool_object.mpr (Or.inl hlookup)⟩
    by_cases hread : (Json.object fields).contains "errors" = true ∧ ok = false
    · obtain ⟨hcontains, rfl⟩ := hread
      have hfalse : fields.lookup "ok" = some (.bool false) := by
        rcases Json.valueBool_object.mp hvalue with hlookup | ⟨-, h⟩
        · exact hlookup
        · cases h
      obtain ⟨v, hv⟩ := Option.isSome_iff_exists.mp hcontains
      have hindex : (Json.object fields).index "errors" = v := by
        rw [Json.index, hv]
        rfl
      have hfirst : ∀ first rest, v = .array (first :: rest) → ∃ message, first = .string message :=
        fun first rest heq => herrors hfalse first rest (heq ▸ hv)
      obtain ⟨error, herror⟩ := errorMessage_ok_iff.mpr hfirst
      exact ⟨_, judgeTurn_eq_ok_iff.mpr ⟨false, hvalue,
        Or.inl ⟨hcontains, rfl, error, hindex ▸ herror, rfl⟩⟩⟩
    · have hplain : (Json.object fields).contains "errors" = false ∨ ok = true := by
        cases hcontains : (Json.object fields).contains "errors" <;> simp_all
      exact ⟨_, judgeTurn_eq_ok_iff.mpr ⟨ok, hvalue, Or.inr ⟨hplain, rfl⟩⟩⟩

theorem processTurn_present {e : BattleEngine sim} {sessionId : String} {turnRequest : Json}
    {session : sim.BattleSession} (h : e.sessions.lookup sessionId = some session) :
    e.processTurn sessionId turnRequest =
      ((sim.processTurn session turnRequest).1.bind judgeTurn,
        ⟨e.sessions.insert sessionId (sim.processTurn session turnRequest).2⟩) := by
  rw [processTurn, h]

theorem processTurn_absent {e : BattleEngine sim} {sessionId : String} {turnRequest : Json}
    (h : e.sessions.lookup sessionId = none) :
    e.processTurn sessionId turnRequest =
      (.ok ⟨false, .null, "session not found: " ++ sessionId⟩, e) := by
  rw [processTurn, h]

end BattleEngine

namespace GameService
variable {sim : Simulator} {R : Type} {B : RedisBackend R} {cfg : ServiceConfig}
  {s : ServerState sim R} {q : GameCommand}

/-- The handler came to one of its returns after ProcessTurn. -/
def AnswersTurn (outcome : Outcome) : Prop :=
  ∃ status code message, outcome = .returned status (.common code message) ∧ (code = 0 ∨ code = 4)

theorem answersTurn_iff {room : Room} {action : Json}
    (hroom : s.rooms.rooms.lookup q.roomId = some room) (hactive : room.isActive = true)
    (hparse : cfg.text.parse q.action = .ok action) :
    AnswersTurn ((sendCommand cfg q).run (exec B) s).1 ↔
      ∃ turn, (s.engine.processTurn q.roomId action).1 = .ok turn := by
  rcases hturn : s.engine.processTurn q.roomId action with ⟨result, e⟩
  cases result with
  | error exn =>
    rw [run_sendCommand_threw hroom hactive hparse hturn]
    simp [AnswersTurn]
  | ok turn =>
    refine iff_of_true ?_ ⟨turn, rfl⟩
    cases haccepted : turn.accepted with
    | true =>
      rw [run_sendCommand_accepted hroom hactive hparse hturn haccepted]
      exact ⟨_, 0, _, rfl, Or.inl rfl⟩
    | false =>
      rw [run_sendCommand_rejected hroom hactive hparse hturn haccepted]
      exact ⟨_, 4, _, rfl, Or.inr rfl⟩

/-- A command of a room with a session is answered with code 0 or 4, and ProcessTurn
returns, exactly for the responses that ProcessTurn can read. -/
theorem sendCommand_answers_iff (B : RedisBackend R) {room : Room} {session : sim.BattleSession}
    {action response : Json} (hroom : s.rooms.rooms.lookup q.roomId = some room)
    (hactive : room.isActive = true) (hsession : s.engine.sessions.lookup q.roomId = some session)
    (hparse : cfg.text.parse q.action = .ok action)
    (hresponse : (sim.processTurn session action).1 = .ok response) :
    (∃ turn, (s.engine.processTurn q.roomId action).1 = .ok turn) ∧
        AnswersTurn ((sendCommand cfg q).run (exec B) s).1 ↔
      response.ReadableTurn := by
  rw [answersTurn_iff hroom hactive hparse, and_self,
    BattleEngine.processTurn_present hsession, hresponse]
  exact BattleEngine.judgeTurn_ok_iff

end GameService

namespace Sample

def answering (response : Json) : Simulator :=
  { simulator with processTurn := fun session _ => (.ok response, session) }

def playing (response : Json) : ServerState (answering response) Store where
  rooms := { RoomManager.init 10 with
    rooms := Finmap.singleton "r" (newRoom "r" "Battle Room" 2)
    roomCount := 1 }
  engine := ⟨Finmap.singleton "r" (0 : ℕ)⟩
  redis := ∅

end Sample

open Sample in
theorem sendCommand_answers_waiting :
    (∃ turn, ((playing (.object [("waiting", .bool true)])).engine.processTurn "r"
      (.object [])).1 = .ok turn) ∧
      AnswersTurn ((sendCommand config ⟨"r", "p1", emptyText⟩).run (exec (Store.backend scanAll))
        (playing (.object [("waiting", .bool true)]))).1 := by
  have hreadable : (Json.object [("waiting", .bool true)]).ReadableTurn :=
    ⟨_, rfl, fun _ h => (by cases h), fun h => (by cases h)⟩
  exact (sendCommand_answers_iff (s := playing (.object [("waiting", .bool true)]))
    (q := ⟨"r", "p1", emptyText⟩) (Store.backend scanAll) Finmap.lookup_singleton_eq rfl
    Finmap.lookup_singleton_eq rfl rfl).mpr hreadable

open Sample in
theorem sendCommand_throws_on_array :
    ¬ ((∃ turn, ((playing (.array [])).engine.processTurn "r" (.object [])).1 = .ok turn) ∧
      AnswersTurn ((sendCommand config ⟨"r", "p1", emptyText⟩).run (exec (Store.backend scanAll))
        (playing (.array []))).1) := by
  rintro ⟨⟨turn, hturn⟩, -⟩
  cases hturn

namespace BattleEngine
variable {sim : Simulator}

theorem judgeTurn_error_eq_empty_iff {response : Json} (h : response.IsTurn) :
    (∃ turn, judgeTurn response = .ok turn ∧ turn.accepted = false ∧ turn.error = "") ↔
      response.RejectsSilently := by
  obtain ⟨fields, rfl, -, -⟩ := h
  constructor
  · rintro ⟨turn, hturn, hrejected, hempty⟩
    obtain ⟨ok, hvalue, ⟨-, -, error, herror, rfl⟩ | ⟨hplain, rfl⟩⟩ :=
      judgeTurn_eq_ok_iff.mp hturn
    · exact absurd hempty (errorMessage_ne_empty herror)
    · obtain rfl : ok = false := hrejected
      refine ⟨?_, by simpa using hplain⟩
      rcases Json.valueBool_object.mp hvalue with hlookup | ⟨-, h⟩
      · exact hlookup
      · cases h
  · rintro ⟨hfalse, hcontains⟩
    have hvalue : (Json.object fields).valueBool "ok" true = .ok false :=
      Json.valueBool_object.mpr (Or.inl hfalse)
    exact ⟨_, judgeTurn_eq_ok_iff.mpr ⟨false, hvalue, Or.inr ⟨Or.inl hcontains, rfl⟩⟩, rfl, rfl⟩

theorem processTurn_error_eq_empty_iff {e : BattleEngine sim} {sessionId : String}
    {turnRequest : Json}
    (hturn : ∀ session, e.sessions.lookup sessionId = some session →
      ∃ response, (sim.processTurn session turnRequest).1 = .ok response ∧ response.IsTurn) :
    (∃ turn, (e.processTurn sessionId turnRequest).1 = .ok turn ∧ turn.accepted = false ∧
        turn.error = "") ↔
      ∃ session response, e.sessions.lookup sessionId = some session ∧
        (sim.processTurn session turnRequest).1 = .ok response ∧ response.RejectsSilently := by
  cases hsession : e.sessions.lookup sessionId with
  | none =>
    rw [processTurn_absent hsession]
    refine iff_of_false ?_ (by simp)
    rintro ⟨turn, hresult, -, hempty⟩
    cases hresult
    simp at hempty
  | some session =>
    obtain ⟨response, hresponse, hkind⟩ := hturn session hsession
    rw [processTurn_present hsession, hresponse]
    refine (judgeTurn_error_eq_empty_iff hkind).trans ?_
    constructor
    · intro hsilent
      exact ⟨session, response, rfl, hresponse, hsilent⟩
    · rintro ⟨session', response', hsession', hresponse', hsilent⟩
      cases hsession'
      cases hresponse.symm.trans hresponse'
      exact hsilent

end BattleEngine

namespace GameService
variable {sim : Simulator} {R : Type} {B : RedisBackend R} {cfg : ServiceConfig}
  {s : ServerState sim R} {q : GameCommand}

theorem rejectionMessage_eq (text : JsonText) (error : String) (response : Json) :
    ∃ answer, rejectionMessage text error response = text.dump answer ∧
      answer.field? "error" = some (.string error) ∧
      (response.contains "errors" = true → answer.field? "errors" = response.field? "errors") := by
  unfold rejectionMessage
  split
  · rename_i hcontains
    obtain ⟨errors, herrors⟩ := Option.isSome_iff_exists.mp hcontains
    refine ⟨_, rfl, ?_, fun _ => ?_⟩
    · simp [Json.field?_setField]
    · simp [Json.field?_setField, Json.index, herrors]
  · rename_i hcontains
    exact ⟨_, rfl, by simp [Json.field?_setField], fun h => absurd h hcontains⟩

theorem rejected_of_code {action : Json} {status : Status} {message : String}
    (hparse : cfg.text.parse q.action = .ok action)
    (h : ((sendCommand cfg q).run (exec B) s).1 = .returned status (.common 4 message)) :
    ∃ turn, (s.engine.processTurn q.roomId action).1 = .ok turn ∧ turn.accepted = false ∧
      message = rejectionMessage cfg.text turn.error turn.response := by
  cases hroom : s.rooms.rooms.lookup q.roomId with
  | none =>
    rw [run_sendCommand_absent (Finmap.lookup_eq_none.mp hroom)] at h
    simp [common] at h
  | some room =>
  cases hactive : room.isActive with
  | false =>
    rw [run_sendCommand_inactive hroom hactive] at h
    simp [common] at h
  | true =>
  rcases hturn : s.engine.processTurn q.roomId action with ⟨result, e⟩
  cases result with
  | error exn =>
    rw [run_sendCommand_threw hroom hactive hparse hturn] at h
    cases h
  | ok turn =>
  cases haccepted : turn.accepted with
  | true =>
    rw [run_sendCommand_accepted hroom hactive hparse hturn haccepted] at h
    simp [common] at h
  | false =>
    rw [run_sendCommand_rejected hroom hactive hparse hturn haccepted] at h
    simp only [common, Outcome.returned.injEq, Response.common.injEq, true_and] at h
    exact ⟨turn, rfl, haccepted, h.2.symm⟩

/-- Every rejection of the turn has a text, and the code 4 answer carries the text
and the errors of the response. -/
structure SaysWhy (e : BattleEngine sim) (sessionId : String) (turnRequest : Json) : Prop where
  error_ne_empty : ∀ turn, (e.processTurn sessionId turnRequest).1 = .ok turn →
    turn.accepted = false → turn.error ≠ ""
  answer : ∀ {R : Type} (B : RedisBackend R) (cfg : ServiceConfig) (s : ServerState sim R)
    (q : GameCommand), s.engine = e → q.roomId = sessionId →
    cfg.text.parse q.action = .ok turnRequest → ∀ status message,
    ((sendCommand cfg q).run (exec B) s).1 = .returned status (.common 4 message) →
    ∃ answer, message = cfg.text.dump answer ∧
      (∃ error, answer.field? "error" = some (.string error) ∧ error ≠ "") ∧
      ∀ turn, (e.processTurn sessionId turnRequest).1 = .ok turn →
        turn.response.contains "errors" = true →
        answer.field? "errors" = turn.response.field? "errors"

/-- A rejected turn says why exactly when the simulator does not answer it with
`"ok": false` and no errors. -/
theorem saysWhy_iff {e : BattleEngine sim} {sessionId : String} {turnRequest : Json}
    (hturn : ∀ session, e.sessions.lookup sessionId = some session →
      ∃ response, (sim.processTurn session turnRequest).1 = .ok response ∧ response.IsTurn) :
    SaysWhy e sessionId turnRequest ↔
      ∀ session response, e.sessions.lookup sessionId = some session →
        (sim.processTurn session turnRequest).1 = .ok response → ¬ response.RejectsSilently := by
  have hempty := BattleEngine.processTurn_error_eq_empty_iff hturn
  constructor
  · intro h session response hsession hresponse hsilent
    obtain ⟨turn, hresult, hrejected, herror⟩ :=
      hempty.mpr ⟨session, response, hsession, hresponse, hsilent⟩
    exact h.error_ne_empty turn hresult hrejected herror
  · intro h
    have hne : ∀ turn, (e.processTurn sessionId turnRequest).1 = .ok turn →
        turn.accepted = false → turn.error ≠ "" := by
      intro turn hresult hrejected herror
      obtain ⟨session, response, hsession, hresponse, hsilent⟩ :=
        hempty.mp ⟨turn, hresult, hrejected, herror⟩
      exact h session response hsession hresponse hsilent
    refine ⟨hne, ?_⟩
    rintro R B cfg s q rfl rfl hparse status message hcode
    obtain ⟨turn, hresult, hrejected, rfl⟩ := rejected_of_code hparse hcode
    obtain ⟨answer, hanswer, herror, herrors⟩ :=
      rejectionMessage_eq cfg.text turn.error turn.response
    refine ⟨answer, hanswer, ⟨turn.error, herror, hne turn hresult hrejected⟩, ?_⟩
    intro turn' hresult'
    cases hresult.symm.trans hresult'
    exact herrors

end GameService

open Sample in
theorem saysWhy_waiting :
    SaysWhy (playing (.object [("waiting", .bool true)])).engine "r" (.object []) := by
  have hkind : (Json.object [("waiting", .bool true)]).IsTurn :=
    ⟨_, rfl, fun _ h => (by cases h), fun _ _ h => (by cases h)⟩
  refine (saysWhy_iff fun _ _ => ⟨_, rfl, hkind⟩).mpr ?_
  rintro session response - hresponse ⟨hok, -⟩
  cases hresponse
  cases hok

open Sample in
theorem silent_rejection :
    ¬ SaysWhy (playing (.object [("ok", .bool false)])).engine "r" (.object []) := by
  intro h
  exact h.error_ne_empty ⟨false, .object [("ok", .bool false)], ""⟩ rfl rfl rfl

end PokemonServer
