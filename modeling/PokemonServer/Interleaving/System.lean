import PokemonServer.Interleaving.Prog

/-!
# Interleavings of a growing pool of programs

A request may start a program at any time; any started program may then execute
its next operation, provided the operation is enabled in the shared state. The
configuration carries the history of executed operations, newest first. It is a
history variable: no program reads it.
-/

namespace Interleaving

structure Thread (Req Op : Type) (Res : Op → Type) (α : Type) where
  req : Req
  prog : Prog Op Res α

structure Event (Op : Type) (Res : Op → Type) where
  tid : ℕ
  op : Op
  res : Res op

structure Config (σ Req Op : Type) (Res : Op → Type) (α : Type) where
  shared : σ
  pool : List (Thread Req Op Res α)
  log : List (Event Op Res)

inductive Action (Req : Type) where
  | start (req : Req)
  | run (tid : ℕ)

structure System (σ Req Op : Type) (Res : Op → Type) (α : Type) where
  code : Req → Prog Op Res α
  exec : (op : Op) → σ → Res op × σ
  enabled : Op → σ → Bool := fun _ _ => true

variable {σ Req Op : Type} {Res : Op → Type} {α : Type}

namespace Config

def init (s : σ) : Config σ Req Op Res α := ⟨s, [], []⟩

/-- No started program still has an operation ahead. -/
def Quiescent (c : Config σ Req Op Res α) : Prop :=
  ∀ th ∈ c.pool, ∃ a, th.prog = .ret a

def isQuiescent (c : Config σ Req Op Res α) : Bool :=
  c.pool.all fun th => match th.prog with
    | .ret _ => true
    | .call _ _ => false

theorem quiescent_of_isQuiescent {c : Config σ Req Op Res α} (h : c.isQuiescent = true) :
    c.Quiescent := by
  intro th hth
  have := List.all_eq_true.mp h th hth
  split at this
  · rename_i a ha
    exact ⟨a, ha⟩
  · cases this

def answer (c : Config σ Req Op Res α) (t : ℕ) : Option α :=
  match c.pool[t]? with
  | some ⟨_, .ret a⟩ => some a
  | _ => none

theorem answer_eq_some {c : Config σ Req Op Res α} {t : ℕ} {a : α} :
    c.answer t = some a ↔ ∃ req, c.pool[t]? = some ⟨req, .ret a⟩ := by
  rw [answer]
  split
  · rename_i req a' hpool
    simp [hpool]
  · rename_i hnot
    exact iff_of_false nofun fun ⟨req, hpool⟩ => hnot req a hpool

def AboutTo (c : Config σ Req Op Res α) (t : ℕ) (req : Req) (op : Op) : Prop :=
  ∃ next, c.pool[t]? = some ⟨req, .call op next⟩

end Config

namespace System

def fire (S : System σ Req Op Res α) (c : Config σ Req Op Res α) :
    Action Req → Option (Config σ Req Op Res α)
  | .start req => some { c with pool := c.pool ++ [⟨req, S.code req⟩] }
  | .run t =>
    match c.pool[t]? with
    | some ⟨req, .call op next⟩ =>
      if S.enabled op c.shared then
        some ⟨(S.exec op c.shared).2, c.pool.set t ⟨req, next (S.exec op c.shared).1⟩,
          ⟨t, op, (S.exec op c.shared).1⟩ :: c.log⟩
      else none
    | _ => none

theorem fire_run {S : System σ Req Op Res α} {c c' : Config σ Req Op Res α} {t : ℕ}
    (h : S.fire c (.run t) = some c') :
    ∃ req op next, c.pool[t]? = some ⟨req, .call op next⟩ ∧ S.enabled op c.shared = true ∧
      c' = ⟨(S.exec op c.shared).2, c.pool.set t ⟨req, next (S.exec op c.shared).1⟩,
        ⟨t, op, (S.exec op c.shared).1⟩ :: c.log⟩ := by
  simp only [fire] at h
  split at h
  · rename_i req op next hpool
    split at h
    · rename_i henabled
      exact ⟨req, op, next, hpool, henabled, (Option.some.inj h).symm⟩
    · cases h
  · cases h

theorem fire_of_enabled {S : System σ Req Op Res α} {c : Config σ Req Op Res α} {t : ℕ}
    {req : Req} {op : Op} {next : Res op → Prog Op Res α}
    (hpool : c.pool[t]? = some ⟨req, .call op next⟩) (henabled : S.enabled op c.shared = true) :
    S.fire c (.run t) = some ⟨(S.exec op c.shared).2,
      c.pool.set t ⟨req, next (S.exec op c.shared).1⟩, ⟨t, op, (S.exec op c.shared).1⟩ :: c.log⟩ := by
  simp only [fire, hpool, henabled, if_true]

inductive Reachable (S : System σ Req Op Res α)
    (ok : Config σ Req Op Res α → Action Req → Prop) (s : σ) : Config σ Req Op Res α → Prop
  | init : Reachable S ok s (Config.init s)
  | step {c c' : Config σ Req Op Res α} {a : Action Req} :
      Reachable S ok s c → ok c a → S.fire c a = some c' → Reachable S ok s c'

theorem Reachable.mono {S : System σ Req Op Res α}
    {ok ok' : Config σ Req Op Res α → Action Req → Prop} (himp : ∀ c a, ok c a → ok' c a)
    {s : σ} {c : Config σ Req Op Res α} (h : S.Reachable ok s c) : S.Reachable ok' s c := by
  induction h with
  | init => exact .init
  | step _ hok hfire ih => exact .step ih (himp _ _ hok) hfire

inductive ReachableFrom (S : System σ Req Op Res α)
    (ok : Config σ Req Op Res α → Action Req → Prop) (c₀ : Config σ Req Op Res α) :
    Config σ Req Op Res α → Prop
  | refl : ReachableFrom S ok c₀ c₀
  | step {c c' : Config σ Req Op Res α} {a : Action Req} :
      ReachableFrom S ok c₀ c → ok c a → S.fire c a = some c' → ReachableFrom S ok c₀ c'

theorem Reachable.trans {S : System σ Req Op Res α}
    {ok ok' : Config σ Req Op Res α → Action Req → Prop} {s : σ} {c₀ c : Config σ Req Op Res α}
    (h₀ : S.Reachable ok s c₀) (himp : ∀ c a, ok' c a → ok c a) (h : S.ReachableFrom ok' c₀ c) :
    S.Reachable ok s c := by
  induction h with
  | refl => exact h₀
  | step _ hok hfire ih => exact .step ih (himp _ _ hok) hfire

def replay (S : System σ Req Op Res α) (ok : Config σ Req Op Res α → Action Req → Bool) :
    Config σ Req Op Res α → List (Action Req) → Option (Config σ Req Op Res α)
  | c, [] => some c
  | c, a :: as => if ok c a then (S.fire c a).bind fun c' => S.replay ok c' as else none

theorem replay_append {S : System σ Req Op Res α} {ok : Config σ Req Op Res α → Action Req → Bool}
    {c c' : Config σ Req Op Res α} {as : List (Action Req)} (h : S.replay ok c as = some c')
    (bs : List (Action Req)) : S.replay ok c (as ++ bs) = S.replay ok c' bs := by
  induction as generalizing c with
  | nil =>
    cases h
    rfl
  | cons a as ih =>
    simp only [replay, List.cons_append] at h ⊢
    split at h
    · rename_i ha
      obtain ⟨d, hfire, hrest⟩ := Option.bind_eq_some_iff.mp h
      rw [if_pos ha, hfire]
      exact ih hrest
    · cases h

theorem exists_replay_of_reachable {S : System σ Req Op Res α}
    {ok : Config σ Req Op Res α → Action Req → Prop} {s : σ} {c : Config σ Req Op Res α}
    (h : S.Reachable ok s c) : ∃ as, S.replay (fun _ _ => true) (Config.init s) as = some c := by
  induction h with
  | init => exact ⟨[], rfl⟩
  | @step c c' a _ _ hfire ih =>
    obtain ⟨as, has⟩ := ih
    refine ⟨as ++ [a], ?_⟩
    rw [replay_append has]
    simp [replay, hfire]

theorem reachableFrom_of_replay {S : System σ Req Op Res α}
    {ok : Config σ Req Op Res α → Action Req → Bool}
    {P : Config σ Req Op Res α → Action Req → Prop} (hok : ∀ c a, ok c a = true → P c a)
    {c₀ c c' : Config σ Req Op Res α} {as : List (Action Req)} (hc : S.ReachableFrom P c₀ c)
    (h : S.replay ok c as = some c') : S.ReachableFrom P c₀ c' := by
  induction as generalizing c with
  | nil => cases h; exact hc
  | cons a as ih =>
    simp only [replay] at h
    split at h
    · rename_i ha
      obtain ⟨d, hfire, hrest⟩ := Option.bind_eq_some_iff.mp h
      exact ih (hc.step (hok _ _ ha) hfire) hrest
    · cases h

theorem exists_reachableFrom_of_replay {S : System σ Req Op Res α}
    (ok : Config σ Req Op Res α → Action Req → Bool)
    {P : Config σ Req Op Res α → Action Req → Prop} (hok : ∀ c a, ok c a = true → P c a)
    (c₀ : Config σ Req Op Res α) (as : List (Action Req)) (check : Config σ Req Op Res α → Bool)
    (h : (S.replay ok c₀ as).any check = true) :
    ∃ c, S.ReachableFrom P c₀ c ∧ check c = true := by
  cases hr : S.replay ok c₀ as with
  | none => simp [hr] at h
  | some c => exact ⟨c, reachableFrom_of_replay hok .refl hr, by simpa [hr] using h⟩

theorem exists_reachable_of_replay {S : System σ Req Op Res α}
    (ok : Config σ Req Op Res α → Action Req → Bool)
    {P : Config σ Req Op Res α → Action Req → Prop} (hok : ∀ c a, ok c a = true → P c a) {s : σ}
    (as : List (Action Req)) (check : Config σ Req Op Res α → Bool)
    (h : (S.replay ok (Config.init s) as).any check = true) :
    ∃ c, S.Reachable P s c ∧ check c = true := by
  obtain ⟨c, hfrom, hcheck⟩ := exists_reachableFrom_of_replay ok hok (Config.init s) as check h
  exact ⟨c, Reachable.init.trans (fun _ _ h => h) hfrom, hcheck⟩

theorem exists_reachable_of_schedule {S : System σ Req Op Res α} {s : σ}
    (as : List (Action Req)) (check : Config σ Req Op Res α → Bool)
    (h : (S.replay (fun _ _ => true) (Config.init s) as).any check = true) :
    ∃ c, S.Reachable (fun _ _ => True) s c ∧ check c = true :=
  exists_reachable_of_replay _ (fun _ _ _ => trivial) as check h

end System
end Interleaving
