import PokemonServer.RoomSession
import PokemonServer.SessionHistory

/-!
# Creations of a room that race with each other

Many handlers may create the same room at once. From a moment when the room is in
neither map and no handler of it is running, and for as long as it is not destroyed,
at most one CreateSession of it succeeds. From then on the room belongs to the
handler that executed it: nobody removes the room or the session, and only turns
advance the session.
-/

namespace PokemonServer
open Interleaving RoomProtocol

variable {sim : Simulator} {R : Type} {B : RedisBackend R} {cfg : ServiceConfig} {r : String}

def makesSession (r : String) : Event ServerOp ServerOp.Res → Bool
  | ⟨_, .createSession sessionId _, .ok (.ok ())⟩ => sessionId == r
  | _ => false

/-- The session that the turns on `r` in the history have made of a session. -/
def advance (sim : Simulator) (r : String) : ServerLog → sim.BattleSession → sim.BattleSession
  | [], session => session
  | ⟨_, .processTurn sessionId action, _⟩ :: es, session =>
    if sessionId = r then (sim.processTurn (advance sim r es session) action).2
    else advance sim r es session
  | _ :: es, session => advance sim r es session

theorem sessionOf_append {later earlier : ServerLog} {session : sim.BattleSession}
    (hmakes : ∀ e ∈ later, makesSession r e = false)
    (hkept : ∀ e ∈ later, e.op ≠ .destroySession r)
    (hsession : sessionOf sim r earlier = some session) :
    sessionOf sim r (later ++ earlier) = some (advance sim r later session) := by
  induction later with
  | nil => exact hsession
  | cons e later ih =>
    have hlater := ih (fun e he => hmakes e (List.mem_cons_of_mem _ he))
      fun e he => hkept e (List.mem_cons_of_mem _ he)
    have hmake := hmakes e List.mem_cons_self
    have hkeep := hkept e List.mem_cons_self
    rw [List.cons_append, sessionOf, hlater]
    obtain ⟨t, op, res⟩ := e
    cases op with
    | createSession sessionId init =>
      match res, hmake with
      | .error _, _ | .ok (.error _), _ => rfl
      | .ok (.ok ()), hmake =>
        have hne : sessionId ≠ r := by simpa [makesSession] using hmake
        simp [sessionStep, advance, hne]
    | processTurn sessionId action =>
      by_cases hr : sessionId = r
      · simp [sessionStep, advance, hr]
      · simp [sessionStep, advance, hr]
    | destroySession sessionId =>
      have hne : sessionId ≠ r := fun he => hkeep (he ▸ rfl)
      simp [sessionStep, advance, hne]
    | _ => rfl

theorem mem_sessions_exec (s : ServerState sim R) (t : ℕ) {op : ServerOp}
    (hkept : op ≠ .destroySession r) :
    (makesSession r ⟨t, op, (GameService.exec B op s).1⟩ = true → r ∉ s.engine.sessions) ∧
      (r ∈ (GameService.exec B op s).2.engine.sessions ↔
        makesSession r ⟨t, op, (GameService.exec B op s).1⟩ = true ∨ r ∈ s.engine.sessions) := by
  cases op with
  | createSession sessionId init =>
    rcases s.engine.createSession_cases sessionId init with
      ⟨session, -, -, hnot, he⟩ | ⟨error, he⟩ | ⟨exn, -, he⟩
    · simp only [GameService.exec, he, makesSession, beq_iff_eq, Finmap.mem_insert]
      exact ⟨fun hr => hr ▸ hnot, or_congr_left eq_comm⟩
    · simp [GameService.exec, he, makesSession]
    · simp [GameService.exec, he, makesSession]
  | processTurn sessionId action =>
    simp [GameService.exec, makesSession, BattleEngine.mem_processTurn]
  | destroySession sessionId =>
    have hne : r ≠ sessionId := fun he => hkept (he ▸ rfl)
    simp [GameService.exec, makesSession, BattleEngine.destroySession, hne]
  | redis op => cases op <;> simp [GameService.exec, makesSession]
  | _ => simp [GameService.exec, makesSession]

def noDestroy (r : String) (_ : ServiceConfiguration sim R) : Action Request → Prop
  | .start req => req ≠ .destroyRoom ⟨r⟩
  | .run _ => True

structure QuietRoom (r : String) (c : ServiceConfiguration sim R) : Prop where
  room : r ∉ c.shared.rooms.rooms
  session : r ∉ c.shared.engine.sessions
  ended : ∀ th ∈ c.pool, th.req.roomId = r → th.req ≠ .getHeartbeat → ∃ a, th.prog = .ret a

theorem heartbeat_idle {t : ℕ} {log : ServerLog} {φ : Phase}
    (h : (roomProtocol cfg).phase .getHeartbeat t log = some φ) : φ = .idle := by
  refine Protocol.phase_induction (I := fun φ => φ = .idle) rfl ?_ h
  rintro φ op res φ' rfl hnext
  cases op with
  | redis op =>
    cases op with
    | isConnected => cases res <;> cases hnext <;> rfl
    | command cmd =>
      cases cmd <;> simp [roomProtocol, next] at hnext
      exact hnext.2.symm
  | _ => simp_all [roomProtocol, next]

theorem closing_of_effect {s s' : ServerState sim R} {req : Request} {φ φ' : Phase} {op : ServerOp}
    (h : Effect cfg B s req φ op φ' s') (hclosing : Closing r req φ') :
    Closing r req φ ∨ req = .destroyRoom ⟨r⟩ := by
  obtain ⟨hroom, rfl⟩ := hclosing
  cases h with
  | read _ | connected => exact Or.inl ⟨hroom, rfl⟩
  | close _ => exact Or.inr (hroom ▸ rfl)

/-- What holds of `r` from a quiet configuration on, `later` being executed since. -/
structure SinceQuiet (cfg : ServiceConfig) (r : String) (c₀ c : ServiceConfiguration sim R)
    (later : ServerLog) : Prop where
  log_eq : c.log = later ++ c₀.log
  tracks : (roomProtocol cfg).Tracks Possible c
  life : RoomLife r c.shared ((roomProtocol cfg).view c).phases
  closing : Protocol.threads ((roomProtocol cfg).view c).phases (Closing r) = ∅
  destroyed : ∀ th ∈ c.pool, th.req = .destroyRoom ⟨r⟩ → ∃ a, th.prog = .ret a
  makes : later.countP (makesSession r) = if r ∈ c.shared.engine.sessions then 1 else 0
  keeps : ∀ e ∈ later, e.op ≠ .destroySession r

namespace SinceQuiet
variable {c₀ c : ServiceConfiguration sim R} {later : ServerLog}

theorem refl (htracks : (roomProtocol cfg).Tracks Possible c₀) (hquiet : QuietRoom r c₀) :
    SinceQuiet cfg r c₀ c₀ [] := by
  have hidle : ∀ t req φ, ((roomProtocol cfg).view c₀).phases t = some (req, φ) →
      req.roomId = r → φ = .idle := by
    intro t req φ hφ hroom
    obtain ⟨th, hth, φ', hφ', heq⟩ : ∃ th, c₀.pool[t]? = some th ∧
        ∃ φ', (roomProtocol cfg).phase th.req t c₀.log = some φ' ∧ (th.req, φ') = (req, φ) := by
      simpa [Protocol.view, Option.bind_eq_some_iff] using hφ
    cases heq
    by_cases hheartbeat : th.req = .getHeartbeat
    · rw [hheartbeat] at hφ'
      exact heartbeat_idle hφ'
    · refine htracks.final hφ fun th' hth' => ?_
      cases hth.symm.trans hth'
      exact hquiet.ended th (List.mem_of_getElem? hth) hroom hheartbeat
  have hempty : ∀ p : Request → Phase → Prop, (∀ req φ, p req φ → req.roomId = r ∧ φ ≠ .idle) →
      Protocol.threads ((roomProtocol cfg).view c₀).phases p = ∅ := by
    intro p hp
    refine Set.eq_empty_of_forall_notMem ?_
    rintro t ⟨req, φ, hφ, hpφ⟩
    exact (hp req φ hpφ).2 (hidle t req φ hφ (hp req φ hpφ).1)
  have hclosing := hempty (Closing r) (by rintro req φ ⟨hr, rfl⟩; simp [hr])
  refine ⟨rfl, htracks, ?_, hclosing, ?_, ?_, by simp⟩
  · unfold RoomLife
    rw [hempty (Half r) (by rintro req φ ⟨hr, rfl | rfl⟩ <;> simp [hr]), hclosing]
    exact Lifecycle.empty hquiet.room hquiet.session
  · intro th hth hreq
    exact hquiet.ended th hth (by rw [hreq]; rfl) (by rw [hreq]; simp)
  · simp [hquiet.session]

theorem start (h : SinceQuiet cfg r c₀ c later) {req : Request} (hreq : req ≠ .destroyRoom ⟨r⟩) :
    SinceQuiet cfg r c₀
      { c with pool := c.pool ++ [⟨req, (GameService.system sim cfg B).code req⟩] } later where
  log_eq := h.log_eq
  tracks := h.tracks.start (follows_handle req)
  life := by
    have hfresh : ((roomProtocol cfg).view c).phases c.pool.length = none := by
      simp [Protocol.view]
    rw [Protocol.view_start h.tracks]
    exact h.life.congr Iff.rfl Iff.rfl
      (Protocol.threads_start hfresh (by simp [Half, roomProtocol]))
      (Protocol.threads_start hfresh (by simp [Closing, roomProtocol]))
  closing := by
    have hfresh : ((roomProtocol cfg).view c).phases c.pool.length = none := by
      simp [Protocol.view]
    rw [Protocol.view_start h.tracks]
    exact (Protocol.threads_start hfresh (by simp [Closing, roomProtocol])).trans h.closing
  destroyed th hth hdestroy := by
    rcases List.mem_append.mp hth with hth | hth
    · exact h.destroyed th hth hdestroy
    · rw [List.mem_singleton.mp hth] at hdestroy
      exact absurd hdestroy hreq
  makes := h.makes
  keeps := h.keeps

theorem run (hsim : sim.CreationReturns) (h : SinceQuiet cfg r c₀ c later) {t : ℕ} {req : Request}
    {op : ServerOp} {next : op.Res → GameService.Handler Outcome}
    (hpool : c.pool[t]? = some ⟨req, .call op next⟩)
    (hkept : op = .destroySession r → req = .destroyRoom ⟨r⟩) :
    SinceQuiet cfg r c₀
      ⟨(GameService.exec B op c.shared).2, c.pool.set t ⟨req, next (GameService.exec B op c.shared).1⟩,
        ⟨t, op, (GameService.exec B op c.shared).1⟩ :: c.log⟩
      (⟨t, op, (GameService.exec B op c.shared).1⟩ :: later) := by
  obtain ⟨φ, φ', hφ, hnext, hview, htracks⟩ :=
    h.tracks.run (S := GameService.system sim cfg B) (exec_possible hsim) hpool
  have hnot : req ≠ .destroyRoom ⟨r⟩ := by
    rintro rfl
    obtain ⟨a, ha⟩ := h.destroyed _ (List.mem_of_getElem? hpool) rfl
    cases ha
  have hspared : op ≠ .destroySession r := fun hop => hnot (hkept hop)
  obtain ⟨hmade, hmem⟩ := mem_sessions_exec (B := B) c.shared t hspared
  have heffect := effect_of_next (B := B) c.shared hnext
  refine ⟨by rw [h.log_eq]; rfl, htracks, ?_, ?_, ?_, ?_, ?_⟩
  · have hlife : RoomLife r (GameService.exec B op c.shared).2
        (Function.update ((roomProtocol cfg).view c).phases t (some (req, φ'))) :=
      h.life.effect hφ heffect fun hreq => absurd hreq hnot
    exact (congrArg View.phases hview).symm ▸ hlife
  · have hsubset : Protocol.threads (Function.update ((roomProtocol cfg).view c).phases t
        (some (req, φ'))) (Closing r) ⊆ ∅ :=
      h.closing ▸ Protocol.threads_update_subset hφ fun hclosing =>
        (closing_of_effect heffect hclosing).resolve_right hnot
    exact (congrArg View.phases hview).symm ▸ Set.subset_empty_iff.mp hsubset
  · intro th hth hreq
    rcases List.mem_or_eq_of_mem_set hth with hth | rfl
    · exact h.destroyed th hth hreq
    · exact absurd hreq hnot
  · rw [List.countP_cons, h.makes, if_congr hmem rfl rfl]
    by_cases hmake : makesSession r ⟨t, op, (GameService.exec B op c.shared).1⟩ = true
    · simp [hmake, hmade hmake]
    · simp [hmake]
  · intro e he
    rcases List.mem_cons.mp he with rfl | he
    · exact hspared
    · exact h.keeps e he

theorem of_reachableFrom (hsim : sim.CreationReturns) {maxRooms : ℕ} {redis : R}
    (h₀ : (GameService.system sim cfg B).Reachable (fun _ _ => True)
      (GameService.initState maxRooms redis) c₀)
    (hquiet : QuietRoom r c₀)
    (h : (GameService.system sim cfg B).ReachableFrom (noDestroy r) c₀ c) :
    ∃ later, SinceQuiet cfg r c₀ c later := by
  induction h with
  | refl =>
    have hguarded : (GameService.system sim cfg B).Reachable
        ((roomProtocol cfg).guarded (fun _ => True) fun _ _ _ _ => True)
        (GameService.initState maxRooms redis) _ :=
      h₀.mono fun c a _ => by cases a <;> simp [Protocol.guarded]
    exact ⟨[], .refl (RoomProtocol.tracks hsim hguarded).1 hquiet⟩
  | @step c c' a hfrom hok hfire ih =>
    obtain ⟨later, ih⟩ := ih
    cases a with
    | start req =>
      cases hfire
      exact ⟨later, ih.start hok⟩
    | run t =>
      obtain ⟨req, op, next, hpool, -, rfl⟩ := System.fire_run hfire
      refine ⟨_, ih.run hsim hpool ?_⟩
      rintro rfl
      have hissued := (GameService.issued_of_reachable (J := fun _ => True) (fun _ _ => trivial)
        (h₀.trans (fun _ _ _ => trivial) hfrom)).2 t req _ ⟨next, hpool⟩
      cases hissued
      rfl

theorem settled (h : SinceQuiet cfg r c₀ c later) (hsession : r ∈ c.shared.engine.sessions) :
    r ∈ c.shared.rooms.rooms ∧
      ¬ (Protocol.threads ((roomProtocol cfg).view c).phases (Half r)).Nonempty := by
  refine h.life.live_iff.mpr ⟨hsession, ?_⟩
  rw [h.closing]
  exact Set.not_nonempty_empty

theorem makes_once (h : SinceQuiet cfg r c₀ c later) {newer older : ServerLog}
    {e : Event ServerOp ServerOp.Res} (hlater : later = newer ++ e :: older)
    (hmakes : makesSession r e = true) :
    r ∈ c.shared.engine.sessions ∧ ∀ e' ∈ newer ++ older, makesSession r e' = false := by
  have hcount := h.makes
  rw [hlater, List.countP_append, List.countP_cons, if_pos hmakes] at hcount
  split at hcount
  · rename_i hsession
    refine ⟨hsession, fun e' he' => ?_⟩
    rw [← Bool.not_eq_true]
    exact List.countP_eq_zero.mp (by rw [List.countP_append]; omega) e' he'
  · omega

theorem makes_unique (h : SinceQuiet cfg r c₀ c later) {e e' : Event ServerOp ServerOp.Res}
    (he : e ∈ later) (he' : e' ∈ later) (hmakes : makesSession r e = true)
    (hmakes' : makesSession r e' = true) : e = e' := by
  obtain ⟨newer, older, hlater⟩ := List.append_of_mem he
  have hothers := (h.makes_once hlater hmakes).2
  rw [hlater, List.mem_append, List.mem_cons] at he'
  rcases he' with he' | rfl | he'
  · rw [hothers e' (List.mem_append_left _ he')] at hmakes'
    cases hmakes'
  · rfl
  · rw [hothers e' (List.mem_append_right _ he')] at hmakes'
    cases hmakes'

theorem entries_spared (hsim : sim.CreationReturns) (h : SinceQuiet cfg r c₀ c later)
    (hsession : r ∈ c.shared.engine.sessions) {t : ℕ} {q : CreateRoomRequest} {op : ServerOp}
    (hop : c.AboutTo t (.createRoom q) op) (hroom : q.roomId = r) :
    (GameService.exec B op c.shared).2.rooms.rooms = c.shared.rooms.rooms ∧
      (GameService.exec B op c.shared).2.engine.sessions = c.shared.engine.sessions := by
  obtain ⟨φ, φ', hφ, heffect⟩ := effect_of_aboutTo (B := B) hsim h.tracks hop
  obtain ⟨hmem, hwhole⟩ := h.settled hsession
  subst hroom
  generalize (GameService.exec B op c.shared).2 = s' at heffect ⊢
  cases heffect with
  | insert _ habsent _ => exact absurd hmem habsent
  | openSession _ habsent => exact absurd hsession habsent
  | cleanUp => exact absurd ⟨t, _, _, hφ, rfl, Or.inr rfl⟩ hwhole
  | _ => exact ⟨rfl, rfl⟩

end SinceQuiet

namespace GameService

theorem createSession_of_code0 {q : CreateRoomRequest} {es : List (Exchange ServerOp ServerOp.Res)}
    {status : Status} {message : String}
    (h : Path (createRoom cfg q) es (.ret (.returned status (.common 0 message)))) :
    ∃ sessionId init, ⟨.createSession sessionId init, .ok (.ok ())⟩ ∈ es := by
  cases h with
  | @cons _ _ maintaining _ _ h =>
  cases maintaining with
  | true => cases h
  | false =>
  cases h with
  | @cons _ _ canCreate es _ h =>
  cases canCreate with
  | false => cases h
  | true =>
  replace h : Path (if q.roomId.isEmpty = true then _ else _) es _ := h
  split at h
  · cases h
  split at h
  · cases h
  rename_i initData _
  cases h with
  | @cons _ _ actualRoomId es _ h =>
  replace h : Path (if actualRoomId.isEmpty = true then _ else _) es _ := h
  split at h
  · cases h
  cases h with
  | @cons _ _ session es _ h =>
  match session, h with
  | .error _, h => cases h
  | .ok (.error _), h =>
    cases h with
    | cons h => cases h
  | .ok (.ok ()), h => exact ⟨actualRoomId, initData, by simp⟩

end GameService

section settled
variable {maxRooms : ℕ} {redis : R} {c₀ c : ServiceConfiguration sim R}

def CreatedSince (r : String) (c₀ c : ServiceConfiguration sim R) (t : ℕ) : Prop :=
  c₀.pool.length ≤ t ∧ ∃ q status message, q.roomId = r ∧
    c.pool[t]? = some ⟨.createRoom q, .ret (.returned status (.common 0 message))⟩

/-- The battle of `r` is the one that thread `t` has made with `init` and that the
commands of `later` have played; no creation of `r` can disturb it. -/
structure Settled (cfg : ServiceConfig) (B : RedisBackend R) (r : String)
    (c₀ c : ServiceConfiguration sim R) (later : ServerLog) (t : ℕ) (init : Json) : Prop where
  room : r ∈ c.shared.rooms.rooms
  session : ∃ q prog session, c.pool[t]? = some ⟨.createRoom q, prog⟩ ∧ q.roomId = r ∧
    cfg.text.parse q.initJson = .ok init ∧ sim.createFromJson init = .ok (.ok session) ∧
    c.shared.engine.sessions.lookup r = some (advance sim r later session)
  turns : ∀ e ∈ later, ∀ action, e.op = .processTurn r action →
    ∃ q prog, c.pool[e.tid]? = some ⟨.sendCommand q, prog⟩ ∧ q.roomId = r
  others : ∀ u, CreatedSince r c₀ c u → u = t
  spared : ∀ u q op, c.AboutTo u (.createRoom q) op → q.roomId = r →
    (GameService.exec B op c.shared).2.rooms.rooms.lookup r = c.shared.rooms.rooms.lookup r ∧
      (GameService.exec B op c.shared).2.engine.sessions.lookup r =
        c.shared.engine.sessions.lookup r

structure BattleUndisturbed (cfg : ServiceConfig) (B : RedisBackend R) (r : String)
    (c₀ c : ServiceConfiguration sim R) : Prop where
  one_created : ∀ t u, CreatedSince r c₀ c t → CreatedSince r c₀ c u → t = u
  settled : ∀ later earlier t init,
    c.log = later ++ ⟨t, .createSession r init, .ok (.ok ())⟩ :: (earlier ++ c₀.log) →
    Settled cfg B r c₀ c later t init

theorem SinceQuiet.exists_session {later : ServerLog} (hsince : SinceQuiet cfg r c₀ c later)
    (hfresh : ∀ e ∈ c₀.log, e.tid < c₀.pool.length)
    (h : (GameService.system sim cfg B).Reachable (fun _ _ => True)
      (GameService.initState maxRooms redis) c) {t : ℕ} (ht : CreatedSince r c₀ c t) :
    ∃ init, ⟨t, .createSession r init, .ok (.ok ())⟩ ∈ later := by
  obtain ⟨hnew, q, status, message, rfl, hpool⟩ := ht
  have hpath := (System.path_of_reachable h).2 t _ hpool
  obtain ⟨sessionId, init, hmem⟩ := GameService.createSession_of_code0 hpath
  have hlog := mem_history.mp hmem
  have hown : sessionId = q.roomId := by
    obtain ⟨th, hth, hissued⟩ :=
      (GameService.issued_of_reachable (J := fun _ => True) (fun _ _ => trivial) h).1 _ hlog
    obtain rfl : th = _ := Option.some.inj (hth.symm.trans hpool)
    cases hissued
    rfl
  rw [hsince.log_eq, List.mem_append] at hlog
  rcases hlog with hlog | hlog
  · exact ⟨init, hown ▸ hlog⟩
  · exact absurd (hfresh _ hlog) (not_lt.mpr hnew)

theorem made_of_log {ok : ServiceConfiguration sim R → Action Request → Prop}
    (h : (GameService.system sim cfg B).Reachable ok (GameService.initState maxRooms redis) c)
    {newer older : ServerLog} {t : ℕ} {init : Json}
    (hlog : c.log = newer ++ ⟨t, .createSession r init, .ok (.ok ())⟩ :: older) :
    ∃ session, sim.createFromJson init = .ok (.ok session) := by
  obtain ⟨c', -, -, -, -, -, -, hres⟩ := System.exists_before h hlog
  have hcreate : (c'.shared.engine.createSession r init).1 = .ok (.ok ()) := hres.symm
  rcases c'.shared.engine.createSession_cases r init with
    ⟨session, -, hsession, -, -⟩ | ⟨error, he⟩ | ⟨exn, -, he⟩
  · exact ⟨session, hsession⟩
  · rw [he] at hcreate
    cases hcreate
  · rw [he] at hcreate
    cases hcreate

/-- From a moment when `r` is in neither map and none of its handlers is running, and
until it is destroyed, racing creations of `r` leave one undisturbed battle. -/
theorem battleUndisturbed (hsim : sim.CreationReturns) (maxRooms : ℕ) (redis : R)
    (h₀ : (GameService.system sim cfg B).Reachable (fun _ _ => True)
      (GameService.initState maxRooms redis) c₀)
    (hquiet : QuietRoom r c₀)
    (h : (GameService.system sim cfg B).ReachableFrom (noDestroy r) c₀ c) :
    BattleUndisturbed cfg B r c₀ c := by
  obtain ⟨later, hsince⟩ := SinceQuiet.of_reachableFrom hsim h₀ hquiet h
  have hreach := h₀.trans (fun _ _ _ => trivial) h
  have hfresh := (System.path_of_reachable h₀).1
  have hissued := (GameService.issued_of_reachable (J := fun _ => True) (fun _ _ => trivial) hreach).1
  constructor
  · intro t u ht hu
    obtain ⟨init, hmem⟩ := hsince.exists_session hfresh hreach ht
    obtain ⟨init', hmem'⟩ := hsince.exists_session hfresh hreach hu
    have heq := hsince.makes_unique hmem hmem' (by simp [makesSession]) (by simp [makesSession])
    cases heq
    rfl
  · intro newer older t init hlog
    have hlater : later = newer ++ ⟨t, .createSession r init, .ok (.ok ())⟩ :: older := by
      rw [hsince.log_eq, ← List.cons_append, ← List.append_assoc] at hlog
      exact List.append_cancel_right hlog
    obtain ⟨hsession, honce⟩ := hsince.makes_once hlater (by simp [makesSession])
    have hevent : ⟨t, .createSession r init, .ok (.ok ())⟩ ∈ later := by simp [hlater]
    constructor
    · exact (hsince.settled hsession).1
    · obtain ⟨⟨req, prog⟩, hth, hop⟩ := hissued _ (hsince.log_eq ▸ List.mem_append_left _ hevent)
      cases hop with
      | @createSession q _ hparse =>
      obtain ⟨session, hmade⟩ := made_of_log hreach hlog
      refine ⟨q, prog, session, hth, rfl, hparse, hmade, ?_⟩
      rw [lookup_eq_sessionOf hreach, hlog]
      refine sessionOf_append (fun e he => honce e (List.mem_append_left _ he)) (fun e he => ?_) ?_
      · exact hsince.keeps e (hlater ▸ List.mem_append_left _ he)
      · simp [sessionOf, sessionStep, Simulator.made, hmade]
    · rintro ⟨u, op, res⟩ he action rfl
      obtain ⟨⟨req, prog⟩, hth, hop⟩ := hissued ⟨u, .processTurn r action, res⟩ (by simp [hlog, he])
      cases hop
      exact ⟨_, prog, hth, rfl⟩
    · intro u hu
      obtain ⟨init', hmem'⟩ := hsince.exists_session hfresh hreach hu
      have heq := hsince.makes_unique hmem' hevent (by simp [makesSession]) (by simp [makesSession])
      cases heq
      rfl
    · intro u q op hop hroom
      obtain ⟨hrooms, hsessions⟩ := hsince.entries_spared (B := B) hsim hsession hop hroom
      exact ⟨by rw [hrooms], by rw [hsessions]⟩

end settled

def Sample.racingCreates : List (Action Request) :=
  begin (create "r") ++ begin (create "r") ++ begin (command "r") ++ calls 0 2 ++ calls 1 2 ++
    calls 1 1 ++ calls 0 1 ++ calls 1 1 ++ calls 2 2 ++ calls 1 3 ++ calls 2 2

open Sample in
theorem battleUndisturbed_by_racingCreates :
    ∃ c, service.ReachableFrom (noDestroy "r") (Config.init state) c ∧ c.isQuiescent = true ∧
      c.shared.engine.sessions.keys = {"r"} ∧
      BattleUndisturbed config (Store.backend scanAll) "r" (Config.init state) c := by
  have hquiet : QuietRoom "r" (Config.init state : ServiceConfiguration simulator Store) :=
    ⟨Finmap.notMem_empty, Finmap.notMem_empty, fun th hth => by cases hth⟩
  obtain ⟨c, hfrom, hcheck⟩ := System.exists_reachableFrom_of_replay (S := service)
    (P := noDestroy "r")
    (fun _ a => match a with
      | .start req => decide (req ≠ .destroyRoom ⟨"r"⟩)
      | .run _ => true)
    (fun c a ha => by cases a <;> simp_all [noDestroy])
    (Config.init state) racingCreates
    (fun c => c.isQuiescent && decide (c.shared.engine.sessions.keys = {"r"})) (by decide +kernel)
  simp only [Bool.and_eq_true, decide_eq_true_eq] at hcheck
  exact ⟨c, hfrom, hcheck.1, hcheck.2,
    battleUndisturbed (fun _ _ h => by cases h) 10 ∅ .init hquiet hfrom⟩

end PokemonServer
