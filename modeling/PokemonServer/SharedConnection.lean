import PokemonServer.Interleaving.Path
import PokemonServer.RedisClient

/-!
# One hiredis connection used by many threads

A redisCommand appends its command to the output of the connection and later takes
the first reply that has arrived. Redis answers the commands in the order in which
they were sent. The commands are numbered; the number tells which call a reply
belongs to, and no program reads it.
-/

namespace PokemonServer
open Interleaving RedisClient

structure Connection where
  store : Store
  connected : Bool
  sent : List (ℕ × Command)
  replies : List (ℕ × Reply)
  nextTicket : ℕ

inductive WireOp where
  | isConnected
  | send (cmd : Command)
  | recv (ticket : ℕ)
  | serve
  | other (cmd : Command)

abbrev WireOp.Res : WireOp → Type
  | .isConnected => Bool
  | .send _ => ℕ
  | .recv _ => Option (ℕ × Reply)
  | .serve => Option (ℕ × Command × Reply)
  | .other _ => Reply

namespace Connection

def init (store : Store) (connected : Bool) : Connection := ⟨store, connected, [], [], 0⟩

/-- `serve` is a step of Redis on this connection, `other` a command of another client. -/
def exec (scanPage : ScanPolicy) : (op : WireOp) → Connection → op.Res × Connection
  | .isConnected, c => (c.connected, c)
  | .send cmd, c => (c.nextTicket,
      { c with sent := c.sent ++ [(c.nextTicket, cmd)], nextTicket := c.nextTicket + 1 })
  | .recv _, c =>
    match c.replies with
    | [] => (none, c)
    | got :: rest => (some got, { c with replies := rest })
  | .serve, c =>
    match c.sent with
    | [] => (none, c)
    | (ticket, cmd) :: rest =>
      let r := Store.exec scanPage cmd c.store
      (some (ticket, cmd, r.1),
        { c with store := r.2, sent := rest, replies := c.replies ++ [(ticket, r.1)] })
  | .other cmd, c =>
    let r := Store.exec scanPage cmd c.store
    (r.1, { c with store := r.2 })

/-- Receiving waits for a reply, Redis for a command. -/
def enabled : WireOp → Connection → Bool
  | .recv _, c => !c.replies.isEmpty
  | .serve, c => !c.sent.isEmpty
  | _, _ => true

def wire : (o : RedisOp) → Prog WireOp WireOp.Res o.Res
  | .isConnected => .op WireOp.isConnected
  | .command cmd => do
    let ticket ← .op (WireOp.send cmd)
    let got ← .op (WireOp.recv ticket)
    return got.map Prod.snd

end Connection

inductive ClientCall where
  | touchNodeHeartbeat (podIp : String) (ttlSeconds : ℤ)
  | registerNode (podIp : String)
  | unregisterNode (podIp : String)
  | getAllNodes
  | setRoomData (roomId data : String)
  | deleteRoomData (roomId : String)
  | getAllRoomSnapshots (fuel : ℕ)
  | deleteRoomsForServer (podIp : String) (fuel : ℕ)

inductive Returned where
  | bool (b : Bool)
  | nodes (podIps : List String)
  | snapshots (pairs : Option (List (String × String)))
  | deleted (anyDeleted : Option Bool)
  | served

def ClientCall.client (text : JsonText) : ClientCall → Client Returned
  | .touchNodeHeartbeat podIp ttl => do return .bool (← RedisClient.touchNodeHeartbeat podIp ttl)
  | .registerNode podIp => do return .bool (← RedisClient.registerNode podIp)
  | .unregisterNode podIp => do return .bool (← RedisClient.unregisterNode podIp)
  | .getAllNodes => do return .nodes (← RedisClient.getAllNodes)
  | .setRoomData roomId data => do return .bool (← RedisClient.setRoomData roomId data)
  | .deleteRoomData roomId => do return .bool (← RedisClient.deleteRoomData roomId)
  | .getAllRoomSnapshots fuel => do return .snapshots (← RedisClient.getAllRoomSnapshots fuel)
  | .deleteRoomsForServer podIp fuel => do
    return .deleted (← RedisClient.deleteRoomsForServer text podIp fuel)

inductive WireRequest where
  | call (call : ClientCall)
  | serve
  | other (cmd : Command)

namespace Connection

def code (text : JsonText) : WireRequest → Prog WireOp WireOp.Res Returned
  | .call call => (call.client text).expand wire
  | .serve => .call .serve fun _ => .ret .served
  | .other cmd => .call (.other cmd) fun _ => .ret .served

def system (text : JsonText) (scanPage : ScanPolicy) :
    System Connection WireRequest WireOp WireOp.Res Returned where
  code := code text
  exec := exec scanPage
  enabled := enabled

abbrev Log := List (Event WireOp WireOp.Res)

/-- The state of a connection whose first `n` replies went to the calls they belong to. -/
structure InOrder (c : Connection) (log : Log) (n : ℕ) : Prop where
  tickets : c.replies.map Prod.fst ++ c.sent.map Prod.fst = List.range' n (c.nextTicket - n)
  le : n ≤ c.nextTicket
  received : ∀ k, (∃ t got, ⟨t, .recv k, got⟩ ∈ log) ↔ k < n
  send_lt : ∀ t cmd k, ⟨t, .send cmd, k⟩ ∈ log → k < c.nextTicket
  send_unique : ∀ t cmd t' cmd' k, ⟨t, .send cmd, k⟩ ∈ log → ⟨t', .send cmd', k⟩ ∈ log →
    t = t' ∧ cmd = cmd'
  sent_send : ∀ k cmd, (k, cmd) ∈ c.sent → ∃ t, ⟨t, .send cmd, k⟩ ∈ log
  sent_unserved : ∀ k cmd, (k, cmd) ∈ c.sent → ∀ u cmd' reply,
    ⟨u, .serve, some (k, cmd', reply)⟩ ∉ log
  serve_send : ∀ u k cmd reply, ⟨u, .serve, some (k, cmd, reply)⟩ ∈ log →
    ∃ t, ⟨t, .send cmd, k⟩ ∈ log
  serve_unique : ∀ u u' k cmd cmd' reply reply', ⟨u, .serve, some (k, cmd, reply)⟩ ∈ log →
    ⟨u', .serve, some (k, cmd', reply')⟩ ∈ log → reply = reply'
  reply_serve : ∀ k reply, (k, reply) ∈ c.replies →
    ∃ u cmd, ⟨u, .serve, some (k, cmd, reply)⟩ ∈ log
  recv_own : ∀ t k got, ⟨t, .recv k, got⟩ ∈ log →
    ∃ reply u cmd, got = some (k, reply) ∧ ⟨u, .serve, some (k, cmd, reply)⟩ ∈ log
  recv_send : ∀ t k got, ⟨t, .recv k, got⟩ ∈ log → ∃ cmd, ⟨t, .send cmd, k⟩ ∈ log

namespace InOrder
variable {c : Connection} {log : Log} {n t : ℕ} {scanPage : ScanPolicy}

theorem init (store : Store) (connected : Bool) : InOrder (Connection.init store connected) [] 0 := by
  constructor <;> simp [Connection.init]

theorem skip (h : InOrder c log n) {op : WireOp} (hop : op = .isConnected ∨ ∃ cmd, op = .other cmd)
    (res : op.Res) (store : Store) : InOrder { c with store := store } (⟨t, op, res⟩ :: log) n := by
  rcases hop with rfl | ⟨cmd, rfl⟩
  all_goals exact ⟨h.tickets, h.le, by simpa using h.received, by simpa using h.send_lt,
    by simpa using h.send_unique, by simpa using h.sent_send, by simpa using h.sent_unserved,
    by simpa using h.serve_send, by simpa using h.serve_unique, by simpa using h.reply_serve,
    by simpa using h.recv_own, by simpa using h.recv_send⟩

theorem le_of_not_received (h : InOrder c log n) {k : ℕ} (hk : ∀ u got, ⟨u, .recv k, got⟩ ∉ log) :
    n ≤ k := by
  by_contra hlt
  obtain ⟨u, got, hmem⟩ := (h.received k).mpr (not_le.mp hlt)
  exact hk u got hmem

theorem send (h : InOrder c log n) (cmd : Command) :
    InOrder (exec scanPage (.send cmd) c).2 (⟨t, .send cmd, c.nextTicket⟩ :: log) n := by
  have hfresh : ∀ t cmd, ⟨t, .send cmd, c.nextTicket⟩ ∉ log := fun t cmd hmem =>
    (h.send_lt t cmd _ hmem).ne rfl
  have hle := h.le
  constructor
  · have hrange : List.range' n (c.nextTicket + 1 - n) =
        List.range' n (c.nextTicket - n) ++ [c.nextTicket] := by
      rw [Nat.sub_add_comm hle, List.range'_1_concat, Nat.add_sub_cancel' hle]
    simp only [exec, List.map_append, List.map_cons, List.map_nil]
    rw [← List.append_assoc, h.tickets, hrange]
  · exact Nat.le_succ_of_le h.le
  · simpa using h.received
  · intro t' cmd' k hmem
    rcases List.mem_cons.mp hmem with heq | hmem
    · cases heq
      exact Nat.lt_succ_self _
    · exact (h.send_lt t' cmd' k hmem).trans (Nat.lt_succ_self _)
  · intro t₁ cmd₁ t₂ cmd₂ k h₁ h₂
    rcases List.mem_cons.mp h₁ with heq₁ | h₁ <;> rcases List.mem_cons.mp h₂ with heq₂ | h₂
    · cases heq₁
      cases heq₂
      exact ⟨rfl, rfl⟩
    · cases heq₁
      exact absurd h₂ (hfresh _ _)
    · cases heq₂
      exact absurd h₁ (hfresh _ _)
    · exact h.send_unique _ _ _ _ _ h₁ h₂
  · intro k cmd' hmem
    rcases List.mem_append.mp hmem with hmem | hmem
    · obtain ⟨t', ht'⟩ := h.sent_send k cmd' hmem
      exact ⟨t', List.mem_cons_of_mem _ ht'⟩
    · cases List.mem_singleton.mp hmem
      exact ⟨t, List.mem_cons_self⟩
  · intro k cmd' hmem u cmd'' reply hserve
    have hserve : ⟨u, .serve, some (k, cmd'', reply)⟩ ∈ log := by simpa using hserve
    rcases List.mem_append.mp hmem with hmem | hmem
    · exact h.sent_unserved k cmd' hmem u cmd'' reply hserve
    · cases List.mem_singleton.mp hmem
      obtain ⟨t', ht'⟩ := h.serve_send u _ _ _ hserve
      exact hfresh _ _ ht'
  · intro u k cmd' reply hserve
    have hserve : ⟨u, .serve, some (k, cmd', reply)⟩ ∈ log := by simpa using hserve
    obtain ⟨t', ht'⟩ := h.serve_send u k cmd' reply hserve
    exact ⟨t', List.mem_cons_of_mem _ ht'⟩
  · simpa using h.serve_unique
  · simpa [exec] using h.reply_serve
  · simpa using h.recv_own
  · intro t' k got hrecv
    have hrecv : ⟨t', .recv k, got⟩ ∈ log := by simpa using hrecv
    obtain ⟨cmd', hsend⟩ := h.recv_send t' k got hrecv
    exact ⟨cmd', List.mem_cons_of_mem _ hsend⟩

theorem serve (h : InOrder c log n) (hsent : c.sent ≠ []) :
    InOrder (exec scanPage .serve c).2 (⟨t, .serve, (exec scanPage .serve c).1⟩ :: log) n := by
  obtain ⟨⟨k, cmd⟩, rest, hcons⟩ := List.exists_cons_of_ne_nil hsent
  have hexec : exec scanPage .serve c =
      (some (k, cmd, (Store.exec scanPage cmd c.store).1),
        { c with
          store := (Store.exec scanPage cmd c.store).2
          sent := rest
          replies := c.replies ++ [(k, (Store.exec scanPage cmd c.store).1)] }) := by
    simp only [exec, hcons]
  have hhead : (k, cmd) ∈ c.sent := hcons ▸ List.mem_cons_self
  have hrest : ∀ p ∈ rest, p ∈ c.sent := fun p hp => hcons ▸ List.mem_cons_of_mem _ hp
  have hnodup : (c.sent.map Prod.fst).Nodup := by
    have hrange : (List.range' n (c.nextTicket - n)).Nodup := List.nodup_range'
    rw [← h.tickets] at hrange
    exact hrange.of_append_right
  have hne : ∀ k' cmd', (k', cmd') ∈ rest → k' ≠ k := by
    rintro k' cmd' hmem rfl
    rw [hcons, List.map_cons, List.nodup_cons] at hnodup
    exact hnodup.1 (List.mem_map.mpr ⟨_, hmem, rfl⟩)
  have hunserved := h.sent_unserved k cmd hhead
  rw [hexec]
  constructor
  · simpa [hcons] using h.tickets
  · exact h.le
  · simpa using h.received
  · simpa using h.send_lt
  · simpa using h.send_unique
  · intro k' cmd' hmem
    obtain ⟨t', ht'⟩ := h.sent_send k' cmd' (hrest _ hmem)
    exact ⟨t', List.mem_cons_of_mem _ ht'⟩
  · intro k' cmd' hmem u cmd'' reply hserve
    rcases List.mem_cons.mp hserve with heq | hserve
    · cases heq
      exact hne k cmd' hmem rfl
    · exact h.sent_unserved k' cmd' (hrest _ hmem) u cmd'' reply hserve
  · intro u k' cmd' reply hserve
    rcases List.mem_cons.mp hserve with heq | hserve
    · cases heq
      obtain ⟨t', ht'⟩ := h.sent_send k cmd hhead
      exact ⟨t', List.mem_cons_of_mem _ ht'⟩
    · obtain ⟨t', ht'⟩ := h.serve_send u k' cmd' reply hserve
      exact ⟨t', List.mem_cons_of_mem _ ht'⟩
  · intro u u' k' cmd₁ cmd₂ reply₁ reply₂ h₁ h₂
    rcases List.mem_cons.mp h₁ with heq₁ | h₁ <;> rcases List.mem_cons.mp h₂ with heq₂ | h₂
    · cases heq₁
      cases heq₂
      rfl
    · cases heq₁
      exact absurd h₂ (hunserved _ _ _)
    · cases heq₂
      exact absurd h₁ (hunserved _ _ _)
    · exact h.serve_unique _ _ _ _ _ _ _ h₁ h₂
  · intro k' reply hmem
    rcases List.mem_append.mp hmem with hmem | hmem
    · obtain ⟨u, cmd', hserve⟩ := h.reply_serve k' reply hmem
      exact ⟨u, cmd', List.mem_cons_of_mem _ hserve⟩
    · cases List.mem_singleton.mp hmem
      exact ⟨t, cmd, List.mem_cons_self⟩
  · intro t' k' got hrecv
    have hrecv : ⟨t', .recv k', got⟩ ∈ log := by simpa using hrecv
    obtain ⟨reply, u, cmd', hgot, hserve⟩ := h.recv_own t' k' got hrecv
    exact ⟨reply, u, cmd', hgot, List.mem_cons_of_mem _ hserve⟩
  · simpa using h.recv_send

theorem recv (h : InOrder c log n) {k : ℕ} {cmd : Command} (hsent : ⟨t, .send cmd, k⟩ ∈ log)
    (hnot : ∀ u got, ⟨u, .recv k, got⟩ ∉ log)
    (hearlier : ∀ j < k, ∃ u got, ⟨u, .recv j, got⟩ ∈ log) (hreply : c.replies ≠ []) :
    InOrder (exec scanPage (.recv k) c).2
      (⟨t, .recv k, (exec scanPage (.recv k) c).1⟩ :: log) (n + 1) := by
  obtain ⟨⟨k', reply⟩, rest, hcons⟩ := List.exists_cons_of_ne_nil hreply
  have hlt := h.send_lt t cmd k hsent
  have hkn : k = n := by
    refine le_antisymm ?_ (h.le_of_not_received hnot)
    by_contra hgt
    obtain ⟨u, got, hmem⟩ := hearlier n (not_le.mp hgt)
    exact absurd ((h.received n).mp ⟨u, got, hmem⟩) (lt_irrefl n)
  have hrange : List.range' n (c.nextTicket - n) =
      n :: List.range' (n + 1) (c.nextTicket - (n + 1)) := by
    have hsucc : c.nextTicket - n = (c.nextTicket - (n + 1)) + 1 := by omega
    rw [hsucc, List.range'_succ]
  have htickets := h.tickets
  rw [hcons, hrange, List.map_cons, List.cons_append, List.cons.injEq] at htickets
  obtain ⟨hk', htail⟩ := htickets
  have hk : k' = k := hk'.trans hkn.symm
  have hexec : exec scanPage (.recv k) c = (some (k, reply), { c with replies := rest }) := by
    simp only [exec, hcons, hk]
  rw [hexec]
  constructor
  · exact htail
  · show n + 1 ≤ c.nextTicket
    omega
  · intro j
    constructor
    · rintro ⟨u, got, hmem⟩
      rcases List.mem_cons.mp hmem with heq | hmem
      · cases heq
        omega
      · exact ((h.received j).mp ⟨u, got, hmem⟩).trans (Nat.lt_succ_self n)
    · intro hj
      by_cases hjk : j = k
      · subst hjk
        exact ⟨t, _, List.mem_cons_self⟩
      · obtain ⟨u, got, hmem⟩ := hearlier j (by omega)
        exact ⟨u, got, List.mem_cons_of_mem _ hmem⟩
  · simpa using h.send_lt
  · simpa using h.send_unique
  · simpa using h.sent_send
  · simpa using h.sent_unserved
  · simpa using h.serve_send
  · simpa using h.serve_unique
  · intro j reply' hmem
    obtain ⟨u, cmd, hserve⟩ := h.reply_serve j reply' (hcons ▸ List.mem_cons_of_mem _ hmem)
    exact ⟨u, cmd, List.mem_cons_of_mem _ hserve⟩
  · intro t' j got hmem
    rcases List.mem_cons.mp hmem with heq | hmem
    · cases heq
      obtain ⟨u, cmd, hserve⟩ := h.reply_serve k reply (hk ▸ hcons ▸ List.mem_cons_self)
      exact ⟨reply, u, cmd, rfl, List.mem_cons_of_mem _ hserve⟩
    · obtain ⟨reply', u, cmd, hgot, hserve⟩ := h.recv_own t' j got hmem
      exact ⟨reply', u, cmd, hgot, List.mem_cons_of_mem _ hserve⟩
  · intro t' j got hmem
    rcases List.mem_cons.mp hmem with heq | hmem
    · cases heq
      exact ⟨cmd, List.mem_cons_of_mem _ hsent⟩
    · obtain ⟨cmd', hsend⟩ := h.recv_send t' j got hmem
      exact ⟨cmd', List.mem_cons_of_mem _ hsend⟩

end InOrder

abbrev WireConfiguration := Config Connection WireRequest WireOp WireOp.Res Returned

/-- A reply is taken only after the replies to all commands sent earlier. -/
def receivesInOrder (c : WireConfiguration) : Action WireRequest → Prop
  | .start _ => True
  | .run t => ∀ req k, c.AboutTo t req (.recv k) → ∀ j < k, ∃ u got, ⟨u, .recv j, got⟩ ∈ c.log

inductive Shape (log : Log) (t : ℕ) : Prog WireOp WireOp.Res Returned → Prop
  | between (p : Client Returned) : Shape log t (p.expand wire)
  | waiting {k : ℕ} {cmd : Command} (next : Option Reply → Client Returned) :
      ⟨t, .send cmd, k⟩ ∈ log → (∀ u got, ⟨u, .recv k, got⟩ ∉ log) →
      Shape log t (.call (.recv k) fun got => (next (got.map Prod.snd)).expand wire)
  | environment {op : WireOp} : (op = .serve ∨ ∃ cmd, op = .other cmd) →
      Shape log t (.call op fun _ => .ret .served)

theorem Shape.mono {log : Log} {t : ℕ} {p : Prog WireOp WireOp.Res Returned}
    (h : Shape log t p) {e : Event WireOp WireOp.Res}
    (he : ∀ k cmd, ⟨t, .send cmd, k⟩ ∈ log → e.op ≠ .recv k) : Shape (e :: log) t p := by
  cases h with
  | between p => exact .between p
  | waiting next hsent hnot =>
    refine .waiting next (List.mem_cons_of_mem _ hsent) fun u got hmem => ?_
    rcases List.mem_cons.mp hmem with heq | hmem
    · exact he _ _ hsent (heq ▸ rfl)
    · exact hnot u got hmem
  | environment hop => exact .environment hop

theorem Shape.sent_of_recv {log : Log} {t k : ℕ}
    {next : Option (ℕ × Reply) → Prog WireOp WireOp.Res Returned}
    (h : Shape log t (.call (.recv k) next)) :
    (∃ cmd, ⟨t, .send cmd, k⟩ ∈ log) ∧ ∀ u got, ⟨u, .recv k, got⟩ ∉ log := by
  generalize hp : (.call (.recv k) next : Prog WireOp WireOp.Res Returned) = p at h
  cases h with
  | between p =>
    cases p with
    | ret a => cases hp
    | call o rest => cases o <;> cases hp
  | waiting next hsent hnot =>
    cases hp
    exact ⟨⟨_, hsent⟩, hnot⟩
  | environment hop =>
    cases hp
    simp at hop

theorem InOrder.step {scanPage : ScanPolicy} {c : Connection} {log : Log} {n t : ℕ} {op : WireOp}
    {next : op.Res → Prog WireOp WireOp.Res Returned} (h : InOrder c log n)
    (hshape : Shape log t (.call op next)) (henabled : enabled op c = true)
    (hguard : ∀ k, op = .recv k → ∀ j < k, ∃ u got, ⟨u, .recv j, got⟩ ∈ log) :
    (∃ n', InOrder (exec scanPage op c).2 (⟨t, op, (exec scanPage op c).1⟩ :: log) n') ∧
      Shape (⟨t, op, (exec scanPage op c).1⟩ :: log) t (next (exec scanPage op c).1) := by
  generalize hp : Prog.call op next = p at hshape
  cases hshape with
  | between p =>
    cases p with
    | ret a => cases hp
    | call o rest =>
      cases o with
      | isConnected =>
        cases hp
        exact ⟨⟨n, h.skip (Or.inl rfl) _ c.store⟩, .between _⟩
      | command cmd =>
        cases hp
        refine ⟨⟨n, h.send cmd⟩, .waiting rest List.mem_cons_self fun u got hmem => ?_⟩
        have hmem : ⟨u, .recv c.nextTicket, got⟩ ∈ log := by simpa [exec] using hmem
        exact absurd ((h.received _).mp ⟨u, got, hmem⟩) (not_lt.mpr h.le)
  | @waiting k cmd next hsent hnot =>
    cases hp
    have hreply : c.replies ≠ [] := by simpa [enabled] using henabled
    exact ⟨⟨n + 1, h.recv hsent hnot (hguard k rfl) hreply⟩, .between _⟩
  | environment hop =>
    cases hp
    refine ⟨?_, .between (.ret .served)⟩
    rcases hop with rfl | ⟨cmd, rfl⟩
    · exact ⟨n, h.serve (by simpa [enabled] using henabled)⟩
    · exact ⟨n, h.skip (Or.inr ⟨cmd, rfl⟩) _ _⟩

theorem inOrder_of_reachable {text : JsonText} {scanPage : ScanPolicy} {store : Store}
    {connected : Bool} {c : WireConfiguration}
    (h : (system text scanPage).Reachable receivesInOrder (init store connected) c) :
    (∃ n, InOrder c.shared c.log n) ∧ ∀ t th, c.pool[t]? = some th → Shape c.log t th.prog := by
  induction h with
  | init => exact ⟨⟨0, .init store connected⟩, by simp [Config.init]⟩
  | @step c c' a _ hok hfire ih =>
    obtain ⟨⟨n, hn⟩, hshape⟩ := ih
    cases a with
    | start req =>
      cases hfire
      refine ⟨⟨n, hn⟩, fun t th hth => ?_⟩
      rcases lt_or_ge t c.pool.length with hlt | hge
      · rw [List.getElem?_append_left hlt] at hth
        exact hshape t th hth
      · rw [List.getElem?_append_right hge, List.getElem?_singleton] at hth
        split at hth
        · cases hth
          cases req with
          | call call => exact .between _
          | serve => exact .environment (Or.inl rfl)
          | other cmd => exact .environment (Or.inr ⟨cmd, rfl⟩)
        · cases hth
    | run t =>
      obtain ⟨req, op, next, hpool, henabled, rfl⟩ := System.fire_run hfire
      have hlt : t < c.pool.length := (List.getElem?_eq_some_iff.mp hpool).1
      have hguard : ∀ k, op = .recv k → ∀ j < k, ∃ u got, ⟨u, .recv j, got⟩ ∈ c.log := by
        rintro k rfl
        exact hok req k ⟨next, hpool⟩
      obtain ⟨hn', hown⟩ := hn.step (hshape t _ hpool) henabled hguard
      refine ⟨hn', fun u th hth => ?_⟩
      by_cases hut : u = t
      · subst hut
        rw [List.getElem?_set_self hlt] at hth
        cases hth
        exact hown
      · rw [List.getElem?_set_ne (Ne.symm hut)] at hth
        refine (hshape u th hth).mono fun k cmd hsent hrecv => ?_
        obtain rfl : op = .recv k := hrecv
        obtain ⟨⟨cmd', hsent'⟩, -⟩ := (hshape t _ hpool).sent_of_recv
        exact hut (hn.send_unique _ _ _ _ _ hsent hsent').1

end Connection
end PokemonServer
