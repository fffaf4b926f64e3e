import PokemonServer.HandlerOps

/-!
# The session of a room, by the history

The session that `sessions_` holds for a room is determined by the operations
executed on it: the last CreateSession that succeeded made it, each turn since then
advanced it, and DestroySession ends it. No other operation touches it.
-/

namespace PokemonServer
open Interleaving

abbrev ServerLog := List (Event ServerOp ServerOp.Res)

variable {sim : Simulator} {R : Type} {B : RedisBackend R} {cfg : ServiceConfig}

def Simulator.made (sim : Simulator) (init : Json) : Option sim.BattleSession :=
  match sim.createFromJson init with
  | .ok (.ok session) => some session
  | _ => none

def sessionStep (sim : Simulator) (r : String) :
    (op : ServerOp) → op.Res → Option sim.BattleSession → Option sim.BattleSession
  | .createSession sessionId init, .ok (.ok ()), session =>
    if sessionId = r then sim.made init else session
  | .processTurn sessionId action, _, session =>
    if sessionId = r then session.map fun session => (sim.processTurn session action).2 else session
  | .destroySession sessionId, _, session => if sessionId = r then none else session
  | _, _, session => session

def sessionOf (sim : Simulator) (r : String) : ServerLog → Option sim.BattleSession
  | [] => none
  | e :: es => sessionStep sim r e.op e.res (sessionOf sim r es)

theorem lookup_exec (s : ServerState sim R) (op : ServerOp) (r : String) :
    (GameService.exec B op s).2.engine.sessions.lookup r =
      sessionStep sim r op (GameService.exec B op s).1 (s.engine.sessions.lookup r) := by
  cases op with
  | createSession sessionId init =>
    rcases s.engine.createSession_cases sessionId init with
      ⟨session, -, hsession, -, he⟩ | ⟨error, he⟩ | ⟨exn, -, he⟩
    · simp only [GameService.exec, he, sessionStep, Simulator.made, hsession]
      by_cases hr : sessionId = r
      · rw [if_pos hr, hr, Finmap.lookup_insert]
      · rw [if_neg hr, Finmap.lookup_insert_of_ne _ (Ne.symm hr)]
    · simp only [GameService.exec, he, sessionStep]
    · simp only [GameService.exec, he, sessionStep]
  | processTurn sessionId action =>
    simp only [GameService.exec, sessionStep, BattleEngine.processTurn]
    cases hsession : s.engine.sessions.lookup sessionId with
    | none =>
      by_cases hr : sessionId = r
      · subst hr
        simp [hsession]
      · simp [hr]
    | some session =>
      by_cases hr : sessionId = r
      · subst hr
        simp [hsession]
      · simp [hr, Finmap.lookup_insert_of_ne _ (Ne.symm hr)]
  | destroySession sessionId =>
    simp only [GameService.exec, sessionStep, BattleEngine.destroySession]
    by_cases hr : sessionId = r
    · rw [if_pos hr, hr, Finmap.lookup_erase]
    · rw [if_neg hr, Finmap.lookup_erase_ne (Ne.symm hr)]
  | redis op => cases op <;> rfl
  | _ => rfl

/-- A creation of the session of `r` has succeeded and no destruction has followed. -/
def sessionOpen (r : String) : ServerLog → Bool
  | [] => false
  | ⟨_, .createSession sessionId _, .ok (.ok ())⟩ :: es => sessionId == r || sessionOpen r es
  | ⟨_, .destroySession sessionId, _⟩ :: es => sessionId != r && sessionOpen r es
  | _ :: es => sessionOpen r es

theorem sessionOpen_exec (s : ServerState sim R) (op : ServerOp) {r : String} {es : ServerLog}
    {t : ℕ} (h : sessionOpen r es = true ↔ r ∈ s.engine.sessions) :
    sessionOpen r (⟨t, op, (GameService.exec B op s).1⟩ :: es) = true ↔
      r ∈ (GameService.exec B op s).2.engine.sessions := by
  cases op with
  | createSession sessionId init =>
    rcases s.engine.createSession_cases sessionId init with
      ⟨session, -, -, -, he⟩ | ⟨error, he⟩ | ⟨exn, -, he⟩
    · simp only [GameService.exec, he, sessionOpen, Bool.or_eq_true, beq_iff_eq, Finmap.mem_insert]
      exact or_congr eq_comm h
    · simpa [GameService.exec, he, sessionOpen] using h
    · simpa [GameService.exec, he, sessionOpen] using h
  | processTurn sessionId action =>
    simp only [GameService.exec, sessionOpen, BattleEngine.mem_processTurn]
    exact h
  | destroySession sessionId =>
    simp only [GameService.exec, sessionOpen, BattleEngine.destroySession, Bool.and_eq_true,
      bne_iff_ne, Finmap.mem_erase]
    exact and_congr ne_comm h
  | redis op => cases op <;> exact h
  | _ => exact h

section runs
variable {ok : Config (ServerState sim R) Request ServerOp ServerOp.Res Outcome →
    Action Request → Prop} {maxRooms : ℕ} {redis : R}
  {c : Config (ServerState sim R) Request ServerOp ServerOp.Res Outcome}

theorem lookup_eq_sessionOf
    (h : (GameService.system sim cfg B).Reachable ok (GameService.initState maxRooms redis) c)
    (r : String) : c.shared.engine.sessions.lookup r = sessionOf sim r c.log := by
  induction h with
  | init => exact Finmap.lookup_empty r
  | @step c c' a _ _ hfire ih =>
    cases a with
    | start req =>
      cases hfire
      exact ih
    | run t =>
      obtain ⟨req, op, next, -, -, rfl⟩ := System.fire_run hfire
      exact (lookup_exec c.shared op r).trans (congrArg _ ih)

theorem sessionOpen_iff_mem
    (h : (GameService.system sim cfg B).Reachable ok (GameService.initState maxRooms redis) c)
    (r : String) : sessionOpen r c.log = true ↔ r ∈ c.shared.engine.sessions := by
  induction h with
  | init => exact iff_of_false Bool.false_ne_true Finmap.notMem_empty
  | @step c c' a _ _ hfire ih =>
    cases a with
    | start req =>
      cases hfire
      exact ih
    | run t =>
      obtain ⟨req, op, next, -, -, rfl⟩ := System.fire_run hfire
      exact sessionOpen_exec c.shared op ih

end runs

end PokemonServer
