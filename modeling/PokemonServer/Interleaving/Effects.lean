import PokemonServer.Interleaving.Path

/-!
# Calls that take effect once

A call changes the shared state at some of its operations, the marked ones. `Executes`
says how many of them a program executes and what it returns then. In every run a call
that has returned has executed so many of them, and a call that still runs no more.
-/

namespace Interleaving

variable {σ Req Op Op' α β : Type} {Res : Op → Type} {Res' : Op' → Type}

namespace Prog

/-- Whatever the results, the program executes `n` marked operations and returns what
`Q` allows. -/
def Executes (possible : (o : Op) → Res o → Prop) (marked : Op → Bool) (Q : α → Prop) :
    ℕ → Prog Op Res α → Prop
  | n, .ret a => n = 0 ∧ Q a
  | n, .call o next => (marked o = true → 0 < n) ∧ ∀ r, possible o r →
      (next r).Executes possible marked Q (if marked o then n - 1 else n)

namespace Executes
variable {possible : (o : Op) → Res o → Prop} {marked : Op → Bool} {Q : α → Prop} {n m : ℕ}
  {p q : Prog Op Res α}

theorem bind {Q' : β → Prop} {f : α → Prog Op Res β} (hp : p.Executes possible marked Q n)
    (hf : ∀ a, Q a → (f a).Executes possible marked Q' m) :
    (p >>= f).Executes possible marked Q' (n + m) := by
  induction p generalizing n with
  | ret a =>
    obtain ⟨rfl, ha⟩ := hp
    rw [Nat.zero_add]
    exact hf a ha
  | call o next ih =>
    obtain ⟨hpos, hnext⟩ := hp
    refine ⟨fun ho => Nat.add_pos_left (hpos ho) m, fun r hr => ?_⟩
    have hrest := ih r (hnext r hr)
    by_cases ho : marked o = true
    · have hn := hpos ho
      simp only [ho, if_true] at hrest ⊢
      rwa [Nat.sub_add_comm hn]
    · simp only [ho] at hrest ⊢
      exact hrest

theorem mono {Q' : α → Prop} (himp : ∀ a, Q a → Q' a) (hp : p.Executes possible marked Q n) :
    p.Executes possible marked Q' n := by
  induction p generalizing n with
  | ret a => exact ⟨hp.1, himp a hp.2⟩
  | call o next ih => exact ⟨hp.1, fun r hr => ih r (hp.2 r hr)⟩

theorem expand {possible' : (o : Op') → Res' o → Prop} {marked' : Op' → Bool}
    {f : (o : Op) → Prog Op' Res' (Res o)}
    (hf : ∀ o, (f o).Executes possible' marked' (possible o) (if marked o then 1 else 0))
    (hp : p.Executes possible marked Q n) : (p.expand f).Executes possible' marked' Q n := by
  induction p generalizing n with
  | ret a => exact hp
  | call o next ih =>
    obtain ⟨hpos, hnext⟩ := hp
    have hrest := (hf o).bind fun r hr => ih r (hnext r hr)
    by_cases ho : marked o = true
    · have hn := hpos ho
      simp only [ho, if_true] at hrest
      rwa [Nat.add_sub_cancel' hn] at hrest
    · simp only [ho, Bool.false_eq_true, if_false, Nat.zero_add] at hrest
      exact hrest

theorem along {es : List (Exchange Op Res)} (h : Path p es q) (hes : ∀ x ∈ es, possible x.op x.res)
    (hp : p.Executes possible marked Q n) :
    ∃ m, n = es.countP (fun x => marked x.op) + m ∧ q.Executes possible marked Q m := by
  induction h generalizing n with
  | nil => exact ⟨n, by simp, hp⟩
  | @cons o next r es q _ ih =>
    obtain ⟨hpos, hnext⟩ := hp
    obtain ⟨m, hm, hq⟩ := ih (fun x hx => hes x (List.mem_cons_of_mem _ hx))
      (hnext r (hes _ List.mem_cons_self))
    refine ⟨m, ?_, hq⟩
    rw [List.countP_cons]
    by_cases ho : marked o = true
    · have hn := hpos ho
      simp only [ho, if_true] at hm ⊢
      omega
    · simp only [ho, Bool.false_eq_true, if_false] at hm ⊢
      omega

end Executes
end Prog

def executions (t : ℕ) (marked : Op → Bool) (log : List (Event Op Res)) : ℕ :=
  log.countP fun e => decide (e.tid = t) && marked e.op

theorem executions_eq (t : ℕ) (marked : Op → Bool) (log : List (Event Op Res)) :
    executions t marked log = (history t log).countP fun x => marked x.op := by
  induction log with
  | nil => rfl
  | cons e es ih =>
    rw [executions, List.countP_cons, ← executions, ih, history]
    by_cases ht : e.tid = t
    · simp [ht]
    · simp [ht]

namespace System
variable {S : System σ Req Op Res α} {ok : Config σ Req Op Res α → Action Req → Prop} {s : σ}
  {c : Config σ Req Op Res α} {possible : (o : Op) → Res o → Prop} {marked : Op → Bool}
  {Q : α → Prop} {n t : ℕ} {req : Req}

theorem executes_of_reachable (h : S.Reachable ok s c) (hlog : ∀ e ∈ c.log, possible e.op e.res)
    (hcode : (S.code req).Executes possible marked Q n) {p : Prog Op Res α}
    (hpool : c.pool[t]? = some ⟨req, p⟩) :
    ∃ m, n = executions t marked c.log + m ∧ p.Executes possible marked Q m := by
  rw [executions_eq]
  refine hcode.along ((path_of_reachable h).2 t _ hpool) ?_
  rintro ⟨o, r⟩ hx
  exact hlog _ (mem_history.mp hx)

theorem executions_le (h : S.Reachable ok s c) (hlog : ∀ e ∈ c.log, possible e.op e.res)
    (hcode : (S.code req).Executes possible marked Q n) {p : Prog Op Res α}
    (hpool : c.pool[t]? = some ⟨req, p⟩) : executions t marked c.log ≤ n := by
  obtain ⟨m, hm, -⟩ := executes_of_reachable h hlog hcode hpool
  omega

theorem executions_of_returned (h : S.Reachable ok s c)
    (hlog : ∀ e ∈ c.log, possible e.op e.res) (hcode : (S.code req).Executes possible marked Q n)
    {a : α} (hpool : c.pool[t]? = some ⟨req, .ret a⟩) :
    executions t marked c.log = n ∧ Q a := by
  obtain ⟨m, hm, rfl, ha⟩ := executes_of_reachable h hlog hcode hpool
  exact ⟨hm.symm, ha⟩

end System
end Interleaving
