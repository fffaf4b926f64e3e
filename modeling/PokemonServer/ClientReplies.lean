import PokemonServer.GameService
import PokemonServer.SharedConnection

/-!
# The replies that reach the callers of RedisClient

When replies are taken in the order of the commands, every call gets the replies
to its own commands, and what SetRoomData and GetAllRoomSnapshots return is about
their own keys. Without that order two concurrent calls exchange their replies.
-/

namespace PokemonServer
open Interleaving RedisClient

namespace Connection

theorem path_wire {cmd : Command} {es : List (Exchange WireOp WireOp.Res)} {reply : Option Reply}
    (h : Path (wire (.command cmd)) es (.ret reply)) :
    ∃ k got, reply = got.map Prod.snd ∧ es = [⟨.send cmd, k⟩, ⟨.recv k, got⟩] := by
  obtain ⟨k, fs, rfl, hrecv⟩ := Path.call_ret_iff.mp h
  obtain ⟨got, gs, rfl, hgot⟩ := Path.call_ret_iff.mp hrecv
  obtain ⟨rfl, hret⟩ := Path.ret_iff.mp hgot
  cases hret
  exact ⟨k, got, rfl, rfl⟩

variable {xs : List (Exchange RedisOp RedisOp.Res)} {es : List (Exchange WireOp WireOp.Res)}

theorem recv_of_command (h : Expands wire xs es) {cmd : Command} {reply : Option Reply}
    (hmem : ⟨.command cmd, reply⟩ ∈ xs) :
    ∃ k got, reply = got.map Prod.snd ∧ ⟨.send cmd, k⟩ ∈ es ∧ ⟨.recv k, got⟩ ∈ es := by
  induction h with
  | nil => cases hmem
  | cons hpath _ ih =>
    rcases List.mem_cons.mp hmem with heq | hmem
    · cases heq
      obtain ⟨k, got, hreply, rfl⟩ := path_wire hpath
      exact ⟨k, got, hreply, by simp, by simp⟩
    · obtain ⟨k, got, hreply, hsend, hrecv⟩ := ih hmem
      exact ⟨k, got, hreply, List.mem_append_right _ hsend, List.mem_append_right _ hrecv⟩

theorem command_of_send (h : Expands wire xs es) {cmd : Command} {k : ℕ}
    (hmem : ⟨.send cmd, k⟩ ∈ es) :
    ∃ got, ⟨.recv k, got⟩ ∈ es ∧ ⟨.command cmd, got.map Prod.snd⟩ ∈ xs := by
  induction h with
  | nil => cases hmem
  | @cons o r fs gs xs hpath _ ih =>
    rcases List.mem_append.mp hmem with hmem | hmem
    · cases o with
      | isConnected =>
        obtain ⟨b, fs', rfl, hrest⟩ := Path.call_ret_iff.mp hpath
        obtain ⟨rfl, -⟩ := Path.ret_iff.mp hrest
        simp at hmem
      | command cmd' =>
        obtain ⟨k', got, rfl, rfl⟩ := path_wire hpath
        simp only [List.mem_cons, Exchange.mk.injEq, WireOp.send.injEq, reduceCtorEq, false_and,
          List.not_mem_nil, or_false] at hmem
        obtain ⟨rfl, hk⟩ := hmem
        cases hk
        exact ⟨got, by simp, List.mem_cons_self⟩
    · obtain ⟨got, hrecv, hcommand⟩ := ih hmem
      exact ⟨got, List.mem_append_right _ hrecv, List.mem_cons_of_mem _ hcommand⟩

theorem path_setRoomData {roomId data : String} {b : Bool}
    (h : Path (setRoomData roomId data) xs (.ret b)) :
    b = true ↔ ∃ reply, ⟨.command (.set (roomKey roomId) data 3600), some reply⟩ ∈ xs ∧
      reply.isStatusOk = true := by
  obtain ⟨connected, ys, rfl, hset⟩ := Path.call_ret_iff.mp h
  cases connected with
  | false =>
    obtain ⟨rfl, hret⟩ := Path.ret_iff.mp hset
    cases hret
    simp
  | true =>
    obtain ⟨reply, zs, rfl, hreply⟩ := Path.call_ret_iff.mp hset
    cases reply with
    | none =>
      obtain ⟨rfl, hret⟩ := Path.ret_iff.mp hreply
      cases hret
      simp
    | some reply =>
      obtain ⟨rfl, hret⟩ := Path.ret_iff.mp hreply
      cases hret
      simp

theorem path_visitKeys {keys : List Reply} {acc pairs : List (String × String)}
    (h : Path (visitKeys collectSnapshot keys acc) xs (.ret pairs)) {key value : String}
    (hmem : (key, value) ∈ pairs) :
    (key, value) ∈ acc ∨ ⟨.command (.get (cstr key)), some (.string value)⟩ ∈ xs := by
  induction keys generalizing acc xs with
  | nil =>
    obtain ⟨rfl, hret⟩ := Path.ret_iff.mp h
    cases hret
    exact Or.inl hmem
  | cons reply keys ih =>
    cases reply with
    | string key' =>
      rw [visitKeys] at h
      split at h
      · exact ih h
      · obtain ⟨got, ys, rfl, hgot⟩ := Path.call_ret_iff.mp h
        have hskip : Path (visitKeys collectSnapshot keys acc) ys (.ret pairs) →
            (key, value) ∈ acc ∨ ⟨.command (.get (cstr key)), some (.string value)⟩ ∈
              ⟨.command (.get (cstr key')), got⟩ :: ys := fun hrest =>
          (ih hrest).imp_right (List.mem_cons_of_mem _)
        cases got with
        | none => exact hskip hgot
        | some got =>
          cases got with
          | string value' =>
            rcases ih hgot with hacc | hys
            · rcases List.mem_append.mp hacc with hacc | hnew
              · exact Or.inl hacc
              · cases List.mem_singleton.mp hnew
                exact Or.inr List.mem_cons_self
            · exact Or.inr (List.mem_cons_of_mem _ hys)
          | status _ | error _ | integer _ | nil | array _ => exact hskip hgot
    | status _ | error _ | integer _ | nil | array _ => exact ih h

theorem path_scanRooms {fuel cursor : ℕ} {acc pairs : List (String × String)}
    (h : Path (scanRooms collectSnapshot fuel cursor acc) xs (.ret (some pairs))) {key value : String}
    (hmem : (key, value) ∈ pairs) :
    (key, value) ∈ acc ∨ ⟨.command (.get (cstr key)), some (.string value)⟩ ∈ xs := by
  induction fuel generalizing cursor acc xs with
  | zero => cases (Path.ret_iff.mp h).2
  | succ fuel ih =>
    obtain ⟨got, ys, rfl, hgot⟩ := Path.call_ret_iff.mp h
    have hstop : Path (.ret (some acc) : Client _) ys (.ret (some pairs)) →
        (key, value) ∈ acc := by
      intro hret
      cases (Path.ret_iff.mp hret).2
      exact hmem
    match got with
    | some (.array (cursorReply :: keysReply :: _)) =>
      have htail : ∀ acc' gs, Path (if strtoull cursorReply.str ≠ 0 then
            scanRooms collectSnapshot fuel (strtoull cursorReply.str) acc' else return some acc') gs
            (.ret (some pairs)) →
          (key, value) ∈ acc' ∨ ⟨.command (.get (cstr key)), some (.string value)⟩ ∈ gs := by
        intro acc' gs hrest
        split at hrest
        · exact ih hrest
        · cases (Path.ret_iff.mp hrest).2
          exact Or.inl hmem
      cases keysReply with
      | array keys =>
        have hloop : Path (visitKeys collectSnapshot keys acc >>= fun acc' =>
            if strtoull cursorReply.str ≠ 0 then
              scanRooms collectSnapshot fuel (strtoull cursorReply.str) acc' else return some acc') ys
            (.ret (some pairs)) := hgot
        obtain ⟨acc', fs, gs, rfl, hpage, hrest⟩ := Path.bind_ret_iff.mp hloop
        rcases htail acc' gs hrest with hacc | hgs
        · exact (path_visitKeys hpage hacc).imp_right fun hfs =>
            List.mem_cons_of_mem _ (List.mem_append_left _ hfs)
        · exact Or.inr (List.mem_cons_of_mem _ (List.mem_append_right _ hgs))
      | status _ | error _ | integer _ | string _ | nil =>
        exact (htail acc ys hgot).imp_right (List.mem_cons_of_mem _)
    | none | some (.status _) | some (.error _) | some (.integer _) | some .nil
    | some (.string _) | some (.array []) | some (.array [_]) => exact Or.inl (hstop hgot)

theorem path_getAllRoomSnapshots {fuel : ℕ} {pairs : List (String × String)}
    (h : Path (getAllRoomSnapshots fuel) xs (.ret (some pairs))) {key value : String}
    (hmem : (key, value) ∈ pairs) :
    ⟨.command (.get (cstr key)), some (.string value)⟩ ∈ xs := by
  obtain ⟨connected, ys, rfl, hscan⟩ := Path.call_ret_iff.mp h
  cases connected with
  | false =>
    cases (Path.ret_iff.mp hscan).2
    cases hmem
  | true =>
    rcases path_scanRooms hscan hmem with hnil | hys
    · cases hnil
    · exact List.mem_cons_of_mem _ hys

/-- Each call has received the replies to the commands it sent. The GET of a pair's
key stops at a NUL, so the last clause is about keys without one. -/
structure RepliesMatch (c : WireConfiguration) : Prop where
  own : ∀ t k got, ⟨t, .recv k, got⟩ ∈ c.log →
    ∃ cmd u reply, ⟨t, .send cmd, k⟩ ∈ c.log ∧ ⟨u, .serve, some (k, cmd, reply)⟩ ∈ c.log ∧
      got = some (k, reply)
  setRoomData : ∀ t roomId data b,
    c.pool[t]? = some ⟨.call (.setRoomData roomId data), .ret (.bool b)⟩ →
    (b = true ↔ ∃ k u reply, ⟨t, .send (.set (roomKey roomId) data 3600), k⟩ ∈ c.log ∧
      ⟨u, .serve, some (k, .set (roomKey roomId) data 3600, reply)⟩ ∈ c.log ∧
      reply.isStatusOk = true)
  snapshots : ∀ t fuel pairs,
    c.pool[t]? = some ⟨.call (.getAllRoomSnapshots fuel), .ret (.snapshots (some pairs))⟩ →
    ∀ key value, (key, value) ∈ pairs → '\x00' ∉ key.toList →
    ∃ k u, ⟨t, .send (.get key), k⟩ ∈ c.log ∧
      ⟨u, .serve, some (k, .get key, .string value)⟩ ∈ c.log

section matching
variable {c : WireConfiguration} {n t : ℕ}

theorem own_of_inOrder (h : InOrder c.shared c.log n) {k : ℕ} {got : Option (ℕ × Reply)}
    (hrecv : ⟨t, .recv k, got⟩ ∈ c.log) :
    ∃ cmd u reply, ⟨t, .send cmd, k⟩ ∈ c.log ∧ ⟨u, .serve, some (k, cmd, reply)⟩ ∈ c.log ∧
      got = some (k, reply) := by
  obtain ⟨cmd, hsend⟩ := h.recv_send t k got hrecv
  obtain ⟨reply, u, cmd', hgot, hserve⟩ := h.recv_own t k got hrecv
  obtain ⟨t', hsend'⟩ := h.serve_send u k cmd' reply hserve
  obtain ⟨-, rfl⟩ := h.send_unique t cmd t' cmd' k hsend hsend'
  exact ⟨cmd, u, reply, hsend, hserve, hgot⟩

theorem served_of_exchange (h : InOrder c.shared c.log n) (hexp : Expands wire xs (history t c.log))
    {cmd : Command} {reply : Reply} (hmem : ⟨.command cmd, some reply⟩ ∈ xs) :
    ∃ k u, ⟨t, .send cmd, k⟩ ∈ c.log ∧ ⟨u, .serve, some (k, cmd, reply)⟩ ∈ c.log := by
  obtain ⟨k, got, hreply, hsend, hrecv⟩ := recv_of_command hexp hmem
  have hsend := mem_history.mp hsend
  obtain ⟨cmd', u, reply', hsend', hserve, rfl⟩ := own_of_inOrder h (mem_history.mp hrecv)
  obtain ⟨-, rfl⟩ := h.send_unique t cmd t cmd' k hsend hsend'
  cases hreply
  exact ⟨k, u, hsend, hserve⟩

theorem exchange_of_served (h : InOrder c.shared c.log n) (hexp : Expands wire xs (history t c.log))
    {cmd : Command} {k u : ℕ} {reply : Reply} (hsend : ⟨t, .send cmd, k⟩ ∈ c.log)
    (hserve : ⟨u, .serve, some (k, cmd, reply)⟩ ∈ c.log) : ⟨.command cmd, some reply⟩ ∈ xs := by
  obtain ⟨got, hrecv, hcommand⟩ := command_of_send hexp (mem_history.mpr hsend)
  obtain ⟨cmd', u', reply', -, hserve', rfl⟩ := own_of_inOrder h (mem_history.mp hrecv)
  rw [h.serve_unique u u' k cmd cmd' reply reply' hserve hserve']
  exact hcommand

end matching

/-- In a run that takes the replies in the order of the commands, every call gets
the replies to its own commands. -/
theorem repliesMatch_of_receivesInOrder (text : JsonText) (scanPage : ScanPolicy) (store : Store)
    (connected : Bool) {c : WireConfiguration}
    (h : (system text scanPage).Reachable receivesInOrder (init store connected) c) :
    RepliesMatch c := by
  obtain ⟨⟨n, hn⟩, -⟩ := inOrder_of_reachable h
  obtain ⟨-, hpath⟩ := System.path_of_reachable h
  refine ⟨fun t k got hrecv => own_of_inOrder hn hrecv, ?_, ?_⟩
  · intro t roomId data b hpool
    obtain ⟨xs, hxs, hexp⟩ := Path.of_expand (hpath t _ hpool)
    obtain ⟨b', ys, zs, rfl, hset, hret⟩ := Path.bind_ret_iff.mp hxs
    obtain ⟨rfl, hb⟩ := Path.ret_iff.mp hret
    cases hb
    rw [List.append_nil] at hexp
    rw [path_setRoomData hset]
    constructor
    · rintro ⟨reply, hmem, hok⟩
      obtain ⟨k, u, hsend, hserve⟩ := served_of_exchange hn hexp hmem
      exact ⟨k, u, reply, hsend, hserve, hok⟩
    · rintro ⟨k, u, reply, hsend, hserve, hok⟩
      exact ⟨reply, exchange_of_served hn hexp hsend hserve, hok⟩
  · intro t fuel pairs hpool key value hmem hkey
    obtain ⟨xs, hxs, hexp⟩ := Path.of_expand (hpath t _ hpool)
    obtain ⟨pairs', ys, zs, rfl, hget, hret⟩ := Path.bind_ret_iff.mp hxs
    obtain ⟨rfl, hb⟩ := Path.ret_iff.mp hret
    cases hb
    rw [List.append_nil] at hexp
    have hexchange := path_getAllRoomSnapshots hget hmem
    rw [cstr_of_noNul hkey] at hexchange
    exact served_of_exchange hn hexp hexchange

def setRoomDataReturned (c : WireConfiguration) (t : ℕ) (roomId data : String) (b : Bool) : Bool :=
  match c.pool[t]? with
  | some ⟨.call (.setRoomData roomId' data'), .ret (.bool b')⟩ =>
    decide (roomId' = roomId) && decide (data' = data) && decide (b' = b)
  | _ => false

theorem pool_of_setRoomDataReturned {c : WireConfiguration} {t : ℕ} {roomId data : String}
    {b : Bool} (h : setRoomDataReturned c t roomId data b = true) :
    c.pool[t]? = some ⟨.call (.setRoomData roomId data), .ret (.bool b)⟩ := by
  unfold setRoomDataReturned at h
  split at h
  · simp only [Bool.and_eq_true, decide_eq_true_eq] at h
    obtain ⟨⟨rfl, rfl⟩, rfl⟩ := h
    assumption
  · cases h

def mixedUp (c : WireConfiguration) : Bool :=
  c.log.any fun e =>
    match e with
    | ⟨_, .recv k, some (k', _)⟩ => k != k'
    | _ => false

theorem not_repliesMatch_of_mixedUp {c : WireConfiguration} (h : mixedUp c = true) :
    ¬ RepliesMatch c := by
  intro hmatch
  obtain ⟨e, he, htest⟩ := List.any_eq_true.mp h
  split at htest
  · rename_i t k k' reply
    obtain ⟨cmd, u, reply', -, -, hgot⟩ := hmatch.own t k _ he
    cases hgot
    simp at htest
  · cases htest

end Connection

namespace Sample

abbrev connection : System Connection WireRequest WireOp WireOp.Res Returned :=
  Connection.system text scanAll

def beginCall (call : ClientCall) : List (Action WireRequest) := [.start (.call call)]
def beginServe : List (Action WireRequest) := [.start .serve]
def steps (t n : ℕ) : List (Action WireRequest) := List.replicate n (.run t)

def repliesCrossed : List (Action WireRequest) :=
  beginCall (.setRoomData "r" "d") ++ beginCall .getAllNodes ++ beginServe ++ beginServe ++
    steps 0 2 ++ steps 1 2 ++ steps 2 1 ++ steps 3 1 ++ steps 1 1 ++ steps 0 1

def repliesInTurn : List (Action WireRequest) :=
  beginCall (.setRoomData "r" "d") ++ beginCall (.getAllRoomSnapshots 1) ++ beginServe ++
    beginServe ++ beginServe ++ steps 0 2 ++ steps 1 2 ++ steps 2 1 ++ steps 3 1 ++ steps 0 1 ++
    steps 1 2 ++ steps 4 1 ++ steps 1 1

end Sample

namespace Connection
open Sample

theorem setRoomData_denied_by_crossed_replies :
    ∃ c, connection.Reachable (fun _ _ => True) (init ∅ true) c ∧
      c.pool[0]? = some ⟨.call (.setRoomData "r" "d"), .ret (.bool false)⟩ ∧
      c.shared.store.lookup (roomKey "r") = some (.string "d") ∧ ¬ RepliesMatch c := by
  obtain ⟨c, hreach, hcheck⟩ := System.exists_reachable_of_schedule (S := connection)
    (s := init ∅ true) repliesCrossed
    (fun c => setRoomDataReturned c 0 "r" "d" false &&
      decide (c.shared.store.lookup (roomKey "r") = some (.string "d")) && mixedUp c)
    (by decide +kernel)
  simp only [Bool.and_eq_true, decide_eq_true_eq] at hcheck
  exact ⟨c, hreach, pool_of_setRoomDataReturned hcheck.1.1, hcheck.1.2,
    not_repliesMatch_of_mixedUp hcheck.2⟩

def received (log : Log) (j : ℕ) : Bool :=
  log.any fun e =>
    match e.op with
    | .recv j' => j' == j
    | _ => false

def receivesInOrderTest (c : WireConfiguration) : Action WireRequest → Bool
  | .start _ => true
  | .run t =>
    match c.pool[t]? with
    | some ⟨_, .call (.recv k) _⟩ => (List.range k).all (received c.log)
    | _ => true

theorem receivesInOrder_of_test {c : WireConfiguration} {a : Action WireRequest}
    (h : receivesInOrderTest c a = true) : receivesInOrder c a := by
  cases a with
  | start req => trivial
  | run t =>
    rintro req k ⟨next, hpool⟩ j hj
    simp only [receivesInOrderTest, hpool, List.all_eq_true, List.mem_range] at h
    obtain ⟨⟨u, op, got⟩, he, htest⟩ := List.any_eq_true.mp (h j hj)
    cases op with
    | recv j' =>
      obtain rfl : j' = j := by simpa using htest
      exact ⟨u, got, he⟩
    | _ => cases htest

theorem repliesMatch_of_repliesInTurn :
    ∃ c, connection.Reachable receivesInOrder (init ∅ true) c ∧
      setRoomDataReturned c 0 "r" "d" true = true ∧ RepliesMatch c := by
  obtain ⟨c, hreach, hcheck⟩ := System.exists_reachable_of_replay (S := connection)
    (s := init ∅ true) receivesInOrderTest (fun _ _ => receivesInOrder_of_test) repliesInTurn
    (fun c => setRoomDataReturned c 0 "r" "d" true) (by decide +kernel)
  exact ⟨c, hreach, hcheck, repliesMatch_of_receivesInOrder text scanAll ∅ true hreach⟩

end Connection
end PokemonServer
