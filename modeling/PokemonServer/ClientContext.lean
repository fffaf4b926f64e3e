import PokemonServer.GameService
import PokemonServer.SharedConnection

/-!
# The context behind IsConnected

IsConnected tests that `context_` is set. hiredis marks a context on which an exchange
has failed and answers every later command on it with null, without sending it. Connect
frees a context that comes with that mark; the command methods keep theirs.
-/

namespace PokemonServer
open Interleaving RedisClient

structure Context where
  err : Bool
  deriving DecidableEq

/-- What becomes of an exchange with Redis: it takes place, or fails before or after the
command is executed. -/
inductive Line where
  | up
  | down (delivered : Bool)
  deriving DecidableEq

structure ClientState where
  context : Option Context
  line : Line
  store : Store

/-- `made` is what redisConnectWithTimeout returns. -/
inductive ContextOp where
  | connect (made : Option Context)
  | disconnect
  | redis (op : RedisOp)
  | lineBecomes (line : Line)

abbrev ContextOp.Res : ContextOp → Type
  | .connect _ => Bool
  | .disconnect | .lineBecomes _ => Unit
  | .redis op => op.Res

inductive ContextRequest where
  | connect (made : Option Context)
  | disconnect
  | call (call : ClientCall)
  | lineBecomes (line : Line)

namespace ClientState

def init (store : Store) : ClientState := ⟨none, .up, store⟩

def connect (made : Option Context) (s : ClientState) : Bool × ClientState :=
  match made with
  | none => (false, { s with context := none })
  | some context =>
    if context.err then (false, { s with context := none })
    else (true, { s with context := some context })

def command (scanPage : ScanPolicy) (cmd : Command) (s : ClientState) :
    Option Reply × ClientState :=
  match s.context with
  | some ⟨false⟩ =>
    let r := Store.exec scanPage cmd s.store
    match s.line with
    | .up => (some r.1, { s with store := r.2 })
    | .down delivered =>
      (none, { s with context := some ⟨true⟩, store := if delivered then r.2 else s.store })
  | _ => (none, s)

def exec (scanPage : ScanPolicy) : (op : ContextOp) → ClientState → op.Res × ClientState
  | .connect made, s => s.connect made
  | .disconnect, s => ((), { s with context := none })
  | .redis .isConnected, s => (s.context.isSome, s)
  | .redis (.command cmd), s => s.command scanPage cmd
  | .lineBecomes line, s => ((), { s with line := line })

/-- hiredis is not called with a null context. -/
def enabled : ContextOp → ClientState → Bool
  | .redis (.command _), s => s.context.isSome
  | _, _ => true

def code (text : JsonText) : ContextRequest → Prog ContextOp ContextOp.Res Returned
  | .connect made => do return .bool (← .op (ContextOp.connect made))
  | .disconnect => do
    let _ ← .op ContextOp.disconnect
    return .served
  | .call call => (call.client text).expand fun o => .op (ContextOp.redis o)
  | .lineBecomes line => do
    let _ ← .op (ContextOp.lineBecomes line)
    return .served

def system (text : JsonText) (scanPage : ScanPolicy) :
    System ClientState ContextRequest ContextOp ContextOp.Res Returned where
  code := code text
  exec := exec scanPage
  enabled := enabled

abbrev ClientConfiguration := Config ClientState ContextRequest ContextOp ContextOp.Res Returned

/-- When IsConnected returns true, the context carries no error. -/
def Truthful (s : ClientState) : Prop := ∀ context, s.context = some context → context.err = false

/-- A command is issued only while the exchange with Redis takes place. -/
def exchangesTakePlace (c : ClientConfiguration) : Action ContextRequest → Prop
  | .start _ => True
  | .run t => ∀ req cmd, c.AboutTo t req (.redis (.command cmd)) → c.shared.line = .up

variable {scanPage : ScanPolicy} {s : ClientState}

theorem truthful_connect (made : Option Context) (s : ClientState) :
    Truthful (s.connect made).2 := by
  intro context hcontext
  unfold connect at hcontext
  split at hcontext
  · cases hcontext
  · split at hcontext
    · cases hcontext
    · rename_i hmade
      cases hcontext
      exact Bool.eq_false_iff.mpr hmade

theorem Truthful.context_eq (h : Truthful s) (hsome : s.context.isSome = true) :
    s.context = some ⟨false⟩ := by
  obtain ⟨⟨err⟩, hcontext⟩ := Option.isSome_iff_exists.mp hsome
  obtain rfl : err = false := h _ hcontext
  exact hcontext

theorem truthful_command_iff (scanPage : ScanPolicy) (h : Truthful s)
    (hsome : s.context.isSome = true) (cmd : Command) :
    Truthful (s.command scanPage cmd).2 ↔ s.line = .up := by
  have hcontext := h.context_eq hsome
  cases hline : s.line with
  | up =>
    have hcommand : (s.command scanPage cmd).2.context = s.context := by
      simp only [command, hcontext, hline]
    refine iff_of_true ?_ rfl
    intro context hnow
    exact h context (hcommand ▸ hnow)
  | down delivered =>
    have hcommand : (s.command scanPage cmd).2.context = some ⟨true⟩ := by
      simp only [command, hcontext, hline]
    refine iff_of_false ?_ (fun hup => by cases hup)
    intro htruthful
    cases htruthful _ hcommand

theorem truthful_exec (h : Truthful s) {op : ContextOp}
    (hop : ∀ cmd, op ≠ .redis (.command cmd)) : Truthful (exec scanPage op s).2 := by
  cases op with
  | connect made => exact truthful_connect made s
  | disconnect =>
    intro context hcontext
    cases hcontext
  | lineBecomes line => exact h
  | redis op =>
    cases op with
    | isConnected => exact h
    | command cmd => exact absurd rfl (hop cmd)

theorem truthful_exec_iff (h : Truthful s) {op : ContextOp} (henabled : enabled op s = true) :
    Truthful (exec scanPage op s).2 ↔ ∀ cmd, op = .redis (.command cmd) → s.line = .up := by
  by_cases hop : ∃ cmd, op = .redis (.command cmd)
  · obtain ⟨cmd, rfl⟩ := hop
    refine (truthful_command_iff scanPage h henabled cmd).trans ?_
    constructor
    · intro hup _ _
      exact hup
    · intro hup
      exact hup cmd rfl
  · refine iff_of_true (truthful_exec h fun cmd hcmd => hop ⟨cmd, hcmd⟩) ?_
    intro cmd hcmd
    exact absurd ⟨cmd, hcmd⟩ hop

theorem truthful_fire_iff (text : JsonText) {c c' : ClientConfiguration}
    (h : Truthful c.shared) {a : Action ContextRequest}
    (hfire : (system text scanPage).fire c a = some c') :
    Truthful c'.shared ↔ exchangesTakePlace c a := by
  cases a with
  | start req =>
    cases hfire
    exact iff_of_true h trivial
  | run t =>
    obtain ⟨req, op, next, hpool, henabled, rfl⟩ := System.fire_run hfire
    refine (truthful_exec_iff h henabled).trans ?_
    constructor
    · rintro hup req' cmd ⟨next', hpool'⟩
      rw [hpool] at hpool'
      cases hpool'
      exact hup cmd rfl
    · rintro hup cmd rfl
      exact hup req cmd ⟨next, hpool⟩

/-- As long as every exchange takes place IsConnected tells the truth, and the step
that issues a command on a failing exchange is the one after which it does not. -/
theorem truthful_iff (text : JsonText) (scanPage : ScanPolicy) (store : Store)
    {c : ClientConfiguration}
    (h : (system text scanPage).Reachable exchangesTakePlace (init store) c) :
    Truthful c.shared ∧ ∀ a c', (system text scanPage).fire c a = some c' →
      (Truthful c'.shared ↔ exchangesTakePlace c a) := by
  have htruthful : Truthful c.shared := by
    induction h with
    | init =>
      intro context hcontext
      cases hcontext
    | step _ hok hfire ih => exact (truthful_fire_iff text ih hfire).mpr hok
  exact ⟨htruthful, fun a c' hfire => truthful_fire_iff text htruthful hfire⟩

def keepsContext (c : ClientConfiguration) : Action ContextRequest → Prop
  | .start _ => True
  | .run t => ∀ req op, c.AboutTo t req op → (∀ made, op ≠ .connect made) ∧ op ≠ .disconnect

theorem exec_dead (scanPage : ScanPolicy) {op : ContextOp} (h : s.context = some ⟨true⟩)
    (hop : (∀ made, op ≠ .connect made) ∧ op ≠ .disconnect) :
    (exec scanPage op s).2.context = some ⟨true⟩ ∧ (exec scanPage op s).2.store = s.store := by
  cases op with
  | connect made => exact absurd rfl (hop.1 made)
  | disconnect => exact absurd rfl hop.2
  | lineBecomes line => exact ⟨h, rfl⟩
  | redis op =>
    cases op with
    | isConnected => exact ⟨h, rfl⟩
    | command cmd =>
      have hsame : (s.command scanPage cmd).2 = s := by
        simp only [command, h]
      rw [exec, hsame]
      exact ⟨h, rfl⟩

/-- A client with a failed context sends nothing more, and IsConnected stays true, until
it connects again. -/
theorem dead_until_connect {text : JsonText} {c₀ c : ClientConfiguration}
    (h₀ : c₀.shared.context = some ⟨true⟩)
    (h : (system text scanPage).ReachableFrom keepsContext c₀ c) :
    c.shared.context = some ⟨true⟩ ∧ c.shared.store = c₀.shared.store := by
  induction h with
  | refl => exact ⟨h₀, rfl⟩
  | @step c c' a _ hok hfire ih =>
    cases a with
    | start req =>
      cases hfire
      exact ih
    | run t =>
      obtain ⟨req, op, next, hpool, -, rfl⟩ := System.fire_run hfire
      obtain ⟨hcontext, hstore⟩ := exec_dead scanPage ih.1 (hok req op ⟨next, hpool⟩)
      exact ⟨hcontext, hstore.trans ih.2⟩

end ClientState

namespace Sample

def client (t n : ℕ) (req : ContextRequest) : List (Action ContextRequest) :=
  .start req :: List.replicate n (.run t)

def heartbeatsEnd : List (Action ContextRequest) :=
  client 0 1 (.connect (some ⟨false⟩)) ++ client 1 1 (.lineBecomes (.down false)) ++
    client 2 2 (.call (.touchNodeHeartbeat "10.0.0.1" 300)) ++ client 3 1 (.lineBecomes .up) ++
    client 4 2 (.call (.touchNodeHeartbeat "10.0.0.1" 300))

def connectedAtSecondTry : List (Action ContextRequest) :=
  client 0 1 (.connect (some ⟨true⟩)) ++ client 1 1 (.connect (some ⟨false⟩)) ++
    client 2 2 (.call (.setRoomData "r" "d"))

end Sample

namespace ClientState
open Sample

theorem isConnected_after_lost_heartbeat :
    ∃ c, (system text scanAll).Reachable (fun _ _ => True) (init ∅) c ∧
      c.shared.context.isSome = true ∧ c.shared.line = .up ∧
      heartbeatKey "10.0.0.1" ∉ c.shared.store ∧ ¬ Truthful c.shared := by
  obtain ⟨c, hreach, hcheck⟩ := System.exists_reachable_of_schedule (S := system text scanAll)
    (s := init ∅) heartbeatsEnd
    (fun c => decide (c.shared.context = some ⟨true⟩) && decide (c.shared.line = .up) &&
      decide (heartbeatKey "10.0.0.1" ∉ c.shared.store)) (by decide +kernel)
  simp only [Bool.and_eq_true, decide_eq_true_eq] at hcheck
  obtain ⟨⟨hcontext, hline⟩, hstore⟩ := hcheck
  refine ⟨c, hreach, ?_, hline, hstore, ?_⟩
  · rw [hcontext]
    rfl
  · intro htruthful
    cases htruthful _ hcontext

def exchangesTakePlaceTest (c : ClientConfiguration) : Action ContextRequest → Bool
  | .start _ => true
  | .run t =>
    match c.pool[t]? with
    | some ⟨_, .call (.redis (.command _)) _⟩ => decide (c.shared.line = .up)
    | _ => true

theorem exchangesTakePlace_of_test {c : ClientConfiguration} {a : Action ContextRequest}
    (h : exchangesTakePlaceTest c a = true) : exchangesTakePlace c a := by
  cases a with
  | start req => trivial
  | run t =>
    rintro req cmd ⟨next, hpool⟩
    simpa [exchangesTakePlaceTest, hpool] using h

theorem truthful_when_connectedAtSecondTry :
    ∃ c, (system text scanAll).Reachable exchangesTakePlace (init ∅) c ∧
      c.shared.context.isSome = true ∧
      c.shared.store.lookup (roomKey "r") = some (.string "d") ∧ Truthful c.shared := by
  obtain ⟨c, hreach, hcheck⟩ := System.exists_reachable_of_replay (S := system text scanAll)
    (s := init ∅) exchangesTakePlaceTest (fun _ _ => exchangesTakePlace_of_test)
    connectedAtSecondTry
    (fun c => c.shared.context.isSome &&
      decide (c.shared.store.lookup (roomKey "r") = some (.string "d"))) (by decide +kernel)
  simp only [Bool.and_eq_true, decide_eq_true_eq] at hcheck
  exact ⟨c, hreach, hcheck.1, hcheck.2, (truthful_iff text scanAll ∅ hreach).1⟩

end ClientState
end PokemonServer
