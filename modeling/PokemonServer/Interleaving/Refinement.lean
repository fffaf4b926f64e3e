import PokemonServer.Interleaving.Path

/-!
# Refinement by commit points

A thread of the concrete system either executes a silent operation or commits, by one
operation, one operation of the abstract thread that runs the same request. Which
operations commit is said by a discipline on the stages of a thread; an invariant ties
the two shared states to the stages of all threads. Every concrete schedule is then
an abstract one after its silent operations are left out, with the same answers.
-/

namespace Interleaving
open Prog

variable {σ σ' Req Op Op' Stage α β : Type} {Res : Op → Type} {Res' : Op' → Type}

structure Discipline (Op : Type) (Res : Op → Type) (Op' : Type) (Res' : Op' → Type)
    (Stage : Type) where
  idle : Stage
  possible : (op : Op') → Res' op → Prop
  step : Stage → Exchange Op' Res' → Stage → Option (Exchange Op Res) → Prop

namespace Discipline

/-- The concrete program, from a stage on, commits what the abstract program executes. -/
def Mirrors (D : Discipline Op Res Op' Res' Stage) :
    Stage → Prog Op' Res' α → Prog Op Res α → Prop
  | φ, .ret a, p => φ = D.idle ∧ p = .ret a
  | φ, .call op next, p => ∀ r, D.possible op r →
      ∃ φ' x p', D.step φ ⟨op, r⟩ φ' x ∧ Path p x.toList p' ∧ D.Mirrors φ' (next r) p'

namespace Mirrors
variable {D : Discipline Op Res Op' Res' Stage} {φ : Stage}

theorem ret (a : α) : D.Mirrors D.idle (.ret a) (.ret a) := ⟨rfl, rfl⟩

theorem silent {op : Op'} {next : Res' op → Prog Op' Res' α} {p : Prog Op Res α}
    (h : ∀ r, D.possible op r → ∃ φ', D.step φ ⟨op, r⟩ φ' none ∧ D.Mirrors φ' (next r) p) :
    D.Mirrors φ (.call op next) p := by
  intro r hr
  obtain ⟨φ', hstep, hrest⟩ := h r hr
  exact ⟨φ', none, p, hstep, .nil, hrest⟩

theorem commit {op : Op'} {next : Res' op → Prog Op' Res' α} {o : Op}
    {onext : Res o → Prog Op Res α}
    (h : ∀ r, D.possible op r → ∃ φ' a, D.step φ ⟨op, r⟩ φ' (some ⟨o, a⟩) ∧
      D.Mirrors φ' (next r) (onext a)) : D.Mirrors φ (.call op next) (.call o onext) := by
  intro r hr
  obtain ⟨φ', a, hstep, hrest⟩ := h r hr
  exact ⟨φ', some ⟨o, a⟩, onext a, hstep, .cons .nil, hrest⟩

theorem bind {q' : Prog Op' Res' α} {q : Prog Op Res α} {k' : α → Prog Op' Res' β}
    {k : α → Prog Op Res β} (hq : D.Mirrors φ q' q)
    (hk : ∀ a, D.Mirrors D.idle (k' a) (k a)) : D.Mirrors φ (q' >>= k') (q >>= k) := by
  induction q' generalizing φ q with
  | ret a =>
    obtain ⟨rfl, rfl⟩ := hq
    exact hk a
  | call op next ih =>
    intro r hr
    obtain ⟨φ', x, p', hstep, hpath, hrest⟩ := hq r hr
    exact ⟨φ', x, p' >>= k, hstep, hpath.bind k, ih r hrest⟩

theorem expand {Op₀ : Type} {Res₀ : Op₀ → Type} {f' : (o : Op₀) → Prog Op' Res' (Res₀ o)}
    {f : (o : Op₀) → Prog Op Res (Res₀ o)} (hf : ∀ o, D.Mirrors D.idle (f' o) (f o))
    (p : Prog Op₀ Res₀ α) : D.Mirrors D.idle (p.expand f') (p.expand f) := by
  induction p with
  | ret a => exact .ret a
  | call o next ih => exact (hf o).bind ih

theorem expand_left {f' : (o : Op) → Prog Op' Res' (Res o)}
    (hf : ∀ o, D.Mirrors D.idle (f' o) (.op o)) (p : Prog Op Res α) :
    D.Mirrors D.idle (p.expand f') p := by
  have hexpand := expand hf p
  rwa [expand_op] at hexpand

end Mirrors

structure Matches (D : Discipline Op Res Op' Res' Stage) (φ : ℕ → Stage)
    (pool : List (Thread Req Op Res α)) (pool' : List (Thread Req Op' Res' α)) : Prop where
  length_eq : pool.length = pool'.length
  fresh : ∀ t, pool'.length ≤ t → φ t = D.idle
  mirrors : ∀ t req p', pool'[t]? = some ⟨req, p'⟩ →
    ∃ p, pool[t]? = some ⟨req, p⟩ ∧ D.Mirrors (φ t) p' p

end Discipline

namespace System

def Commits (S : System σ Req Op Res α) : Option (Exchange Op Res) → σ → σ → Prop
  | none, s, s' => s' = s
  | some x, s, s' => S.enabled x.op s = true ∧ S.exec x.op s = (x.res, s')

/-- What a user of the library proves: programs mirror each other, and every permitted
step keeps the invariant while the abstract state executes what the step commits. -/
structure Refines (D : Discipline Op Res Op' Res' Stage) (S : System σ Req Op Res α)
    (S' : System σ' Req Op' Res' α) (permitted : (ℕ → Stage) → Op' → Prop)
    (I : σ → σ' → (ℕ → Stage) → Prop) : Prop where
  possible : ∀ op s, D.possible op (S'.exec op s).1
  code : ∀ req, D.Mirrors D.idle (S'.code req) (S.code req)
  step : ∀ a s φ t op φ' x, I a s φ → S'.enabled op s = true → permitted φ op →
    D.step (φ t) ⟨op, (S'.exec op s).1⟩ φ' x →
    ∃ a', S.Commits x a a' ∧ I a' (S'.exec op s).2 (Function.update φ t φ')

end System

namespace Discipline.Matches
variable {D : Discipline Op Res Op' Res' Stage} {φ : ℕ → Stage}
  {pool : List (Thread Req Op Res α)} {pool' : List (Thread Req Op' Res' α)}

theorem nil : D.Matches (fun _ => D.idle) ([] : List (Thread Req Op Res α))
    ([] : List (Thread Req Op' Res' α)) where
  length_eq := rfl
  fresh _ _ := rfl
  mirrors t req p' h := by cases h

theorem append (h : D.Matches φ pool pool') {req : Req} {p : Prog Op Res α}
    {p' : Prog Op' Res' α} (hp : D.Mirrors D.idle p' p) :
    D.Matches φ (pool ++ [⟨req, p⟩]) (pool' ++ [⟨req, p'⟩]) where
  length_eq := by
    rw [List.length_append, List.length_append, h.length_eq]
    rfl
  fresh t ht := by
    rw [List.length_append] at ht
    exact h.fresh t (by omega)
  mirrors t req' q' hq' := by
    rcases lt_or_ge t pool'.length with hlt | hge
    · rw [List.getElem?_append_left hlt] at hq'
      rw [List.getElem?_append_left (h.length_eq ▸ hlt)]
      exact h.mirrors t req' q' hq'
    · rw [List.getElem?_append_right hge, List.getElem?_singleton] at hq'
      rw [List.getElem?_append_right (h.length_eq ▸ hge), List.getElem?_singleton, h.length_eq]
      split at hq'
      · rename_i heq
        cases hq'
        rw [if_pos heq, h.fresh t hge]
        exact ⟨p, rfl, hp⟩
      · cases hq'

theorem set (h : D.Matches φ pool pool') {t : ℕ} {req : Req} {φ' : Stage} {p : Prog Op Res α}
    {p' : Prog Op' Res' α} (hlt : t < pool'.length) (hp : D.Mirrors φ' p' p) :
    D.Matches (Function.update φ t φ') (pool.set t ⟨req, p⟩) (pool'.set t ⟨req, p'⟩) where
  length_eq := by
    rw [List.length_set, List.length_set, h.length_eq]
  fresh u hu := by
    rw [List.length_set] at hu
    rw [Function.update_of_ne (hlt.trans_le hu).ne']
    exact h.fresh u hu
  mirrors u req' q' hq' := by
    by_cases hut : u = t
    · subst hut
      rw [List.getElem?_set_self hlt] at hq'
      rw [List.getElem?_set_self (h.length_eq ▸ hlt), Function.update_self]
      cases hq'
      exact ⟨p, rfl, hp⟩
    · rw [List.getElem?_set_ne (Ne.symm hut)] at hq'
      rw [List.getElem?_set_ne (Ne.symm hut), Function.update_of_ne hut]
      exact h.mirrors u req' q' hq'

theorem set_right (h : D.Matches φ pool pool') {t : ℕ} {req : Req} {φ' : Stage}
    {p : Prog Op Res α} {p' : Prog Op' Res' α} (hlt : t < pool'.length)
    (hpool : pool[t]? = some ⟨req, p⟩) (hp : D.Mirrors φ' p' p) :
    D.Matches (Function.update φ t φ') pool (pool'.set t ⟨req, p'⟩) := by
  have hset : pool.set t ⟨req, p⟩ = pool := by
    obtain ⟨hlt', heq⟩ := List.getElem?_eq_some_iff.mp hpool
    rw [← heq, List.set_getElem_self]
  have hmatches : D.Matches _ (pool.set t ⟨req, p⟩) (pool'.set t ⟨req, p'⟩) := h.set hlt hp
  rwa [hset] at hmatches

theorem answers (h : D.Matches φ pool pool') {t : ℕ} {req : Req} {a : α}
    (hret : pool'[t]? = some ⟨req, .ret a⟩) : pool[t]? = some ⟨req, .ret a⟩ := by
  obtain ⟨p, hp, -, rfl⟩ := h.mirrors t req _ hret
  exact hp

theorem aboutTo_of_ne_idle (h : D.Matches φ pool pool') {t : ℕ} (ht : φ t ≠ D.idle) :
    ∃ req op next p, pool'[t]? = some ⟨req, .call op next⟩ ∧
      D.Mirrors (φ t) (.call op next) p := by
  have hlt : t < pool'.length := by
    by_contra hge
    exact ht (h.fresh t (not_lt.mp hge))
  obtain ⟨⟨req, p'⟩, hp'⟩ : ∃ th, pool'[t]? = some th := ⟨_, List.getElem?_eq_getElem hlt⟩
  obtain ⟨p, -, hm⟩ := h.mirrors t req p' hp'
  cases p' with
  | ret a => exact absurd hm.1 ht
  | call op next => exact ⟨req, op, next, p, hp', hm⟩

end Discipline.Matches

namespace System
variable {D : Discipline Op Res Op' Res' Stage} {φ : ℕ → Stage} {c : Config σ Req Op Res α}
  {c' d' : Config σ' Req Op' Res' α} {S : System σ Req Op Res α} {S' : System σ' Req Op' Res' α}
  {permitted : (ℕ → Stage) → Op' → Prop} {I : σ → σ' → (ℕ → Stage) → Prop}
  {ok : Config σ' Req Op' Res' α → Action Req → Bool}

theorem idle_of_quiescent (h : D.Matches φ c.pool c'.pool) (hq : c'.Quiescent) (t : ℕ) :
    φ t = D.idle := by
  by_contra ht
  obtain ⟨req, op, next, p, hpool, -⟩ := h.aboutTo_of_ne_idle ht
  obtain ⟨a, ha⟩ := hq _ (List.mem_of_getElem? hpool)
  cases ha

theorem Refines.run (hR : S.Refines D S' permitted I) (h : D.Matches φ c.pool c'.pool)
    (hI : I c.shared c'.shared φ) {t : ℕ} {req : Req} {op : Op'}
    {next : Res' op → Prog Op' Res' α} (hpool : c'.pool[t]? = some ⟨req, .call op next⟩)
    (henabled : S'.enabled op c'.shared = true) (hpermitted : permitted φ op) :
    ∃ φ' d, (d = c ∨ S.fire c (.run t) = some d) ∧
      D.Matches φ' d.pool (c'.pool.set t ⟨req, next (S'.exec op c'.shared).1⟩) ∧
      I d.shared (S'.exec op c'.shared).2 φ' := by
  have hlt : t < c'.pool.length := (List.getElem?_eq_some_iff.mp hpool).1
  obtain ⟨p, hp, hm⟩ := h.mirrors t req _ hpool
  obtain ⟨φ', x, q, hstep, hpath, hrest⟩ := hm _ (hR.possible op c'.shared)
  obtain ⟨a', hcommits, hI'⟩ := hR.step _ _ _ t op φ' x hI henabled hpermitted hstep
  refine ⟨Function.update φ t φ', ?_⟩
  cases x with
  | none =>
    obtain rfl : a' = c.shared := hcommits
    obtain rfl := Path.nil_iff.mp hpath
    exact ⟨c, Or.inl rfl, h.set_right hlt hp hrest, hI'⟩
  | some x =>
    obtain ⟨o, r⟩ := x
    obtain ⟨henabled', hexec⟩ := hcommits
    obtain ⟨onext, rfl, hnil⟩ := Path.cons_iff.mp hpath
    obtain rfl := Path.nil_iff.mp hnil
    have hfire := System.fire_of_enabled hp henabled'
    rw [hexec] at hfire
    exact ⟨_, Or.inr hfire, h.set hlt hrest, hI'⟩

def Guards (D : Discipline Op Res Op' Res' Stage) (permitted : (ℕ → Stage) → Op' → Prop)
    (ok : Config σ' Req Op' Res' α → Action Req → Bool) : Prop :=
  ∀ φ (pool : List (Thread Req Op Res α)) c' t req op, D.Matches φ pool c'.pool →
    ok c' (.run t) = true → c'.AboutTo t req op → permitted φ op

/-- The run theorem: what is left of a schedule without its silent operations is a
schedule of the abstract system. -/
theorem Refines.exists_replay (hR : S.Refines D S' permitted I) (hok : Guards D permitted ok)
    (hmatches : D.Matches φ c.pool c'.pool) (hI : I c.shared c'.shared φ)
    {as' : List (Action Req)} (h : S'.replay ok c' as' = some d') :
    ∃ as d φ', as.Sublist as' ∧ S.replay (fun _ _ => true) c as = some d ∧
      D.Matches φ' d.pool d'.pool ∧ I d.shared d'.shared φ' := by
  induction as' generalizing c c' φ with
  | nil =>
    cases h
    exact ⟨[], c, φ, .slnil, rfl, hmatches, hI⟩
  | cons a as' ih =>
    simp only [replay] at h
    split at h
    · rename_i ha
      obtain ⟨e', hfire, hrest⟩ := Option.bind_eq_some_iff.mp h
      cases a with
      | start req =>
        cases hfire
        have hstart : D.Matches φ ({ c with pool := c.pool ++ [⟨req, S.code req⟩] } :
            Config σ Req Op Res α).pool ({ c' with pool := c'.pool ++ [⟨req, S'.code req⟩] } :
            Config σ' Req Op' Res' α).pool := hmatches.append (hR.code req)
        obtain ⟨as, d, φ', hsub, hreplay, hd⟩ := ih hstart hI hrest
        exact ⟨.start req :: as, d, φ', hsub.cons_cons _, by simpa [replay, fire] using hreplay, hd⟩
      | run t =>
        obtain ⟨req, op, next, hpool, henabled, rfl⟩ := fire_run hfire
        have hpermitted := hok φ c.pool c' t req op hmatches ha ⟨next, hpool⟩
        obtain ⟨φ₁, e, hstep, hmatches₁, hI₁⟩ := hR.run hmatches hI hpool henabled hpermitted
        obtain ⟨as, d, φ', hsub, hreplay, hd⟩ := ih hmatches₁ hI₁ hrest
        rcases hstep with rfl | hfire'
        · exact ⟨as, d, φ', hsub.cons _, hreplay, hd⟩
        · refine ⟨.run t :: as, d, φ', hsub.cons_cons _, ?_, hd⟩
          simp only [replay, if_true, Option.bind_eq_some_iff]
          exact ⟨e, hfire', hreplay⟩
    · cases h

theorem Refines.exists_matches {s : σ} {s' : σ'} (hR : S.Refines D S' (fun _ _ => True) I)
    (hinit : I s s' fun _ => D.idle) {P : Config σ' Req Op' Res' α → Action Req → Prop}
    (h : S'.Reachable P s' c') :
    ∃ (d : Config σ Req Op Res α) (φ : ℕ → Stage), S.Reachable (fun _ _ => True) s d ∧
      D.Matches φ d.pool c'.pool ∧ I d.shared c'.shared φ := by
  obtain ⟨as, has⟩ := exists_replay_of_reachable h
  have hmatches : D.Matches (fun _ => D.idle) (Config.init s : Config σ Req Op Res α).pool
      (Config.init s' : Config σ' Req Op' Res' α).pool := .nil
  obtain ⟨bs, d, φ, -, hreplay, hd⟩ :=
    hR.exists_replay (fun _ _ _ _ _ _ _ _ _ => trivial) hmatches hinit has
  have hfrom : S.ReachableFrom (fun _ _ => True) (Config.init s) d :=
    reachableFrom_of_replay (fun _ _ _ => trivial) .refl hreplay
  exact ⟨d, φ, Reachable.init.trans (fun _ _ h => h) hfrom, hd⟩

end System

/-- The run `bs`, from `s` to `d`, of the abstract system explains the concrete schedule
`as` that has come to `c`: it is what is left of that schedule, so that calls that do
not overlap keep their order, it answers alike, and it comes to the same state. -/
structure Explains (S : System σ Req Op Res α) (abs : σ' → σ) (s : σ) (as : List (Action Req))
    (c : Config σ' Req Op' Res' α) (bs : List (Action Req)) (d : Config σ Req Op Res α) : Prop where
  sublist : bs.Sublist as
  run : S.replay (fun _ _ => true) (Config.init s) bs = some d
  length_eq : d.pool.length = c.pool.length
  answers : ∀ (t : ℕ) (req : Req) (a : α), c.pool[t]? = some ⟨req, .ret a⟩ →
    d.pool[t]? = some ⟨req, .ret a⟩
  settles : c.Quiescent → d.shared = abs c.shared

namespace Explains
variable {S : System σ Req Op Res α} {abs : σ' → σ} {s : σ} {as bs : List (Action Req)}
  {c : Config σ' Req Op' Res' α} {d : Config σ Req Op Res α}

theorem quiescent (h : Explains S abs s as c bs d) (hq : c.Quiescent) : d.Quiescent := by
  intro th hth
  obtain ⟨t, ht⟩ := List.mem_iff_getElem?.mp hth
  have hlt : t < c.pool.length := by
    rw [← h.length_eq]
    exact (List.getElem?_eq_some_iff.mp ht).1
  obtain ⟨a, ha⟩ := hq _ (List.getElem_mem hlt)
  have hret : c.pool[t]? = some ⟨c.pool[t].req, .ret a⟩ := by
    rw [List.getElem?_eq_getElem hlt, ← ha]
  rw [h.answers t _ a hret] at ht
  cases ht
  exact ⟨a, rfl⟩

theorem answer_eq (h : Explains S abs s as c bs d) {t : ℕ} {a : α} (ha : c.answer t = some a) :
    d.answer t = some a := by
  obtain ⟨req, hpool⟩ := Config.answer_eq_some.mp ha
  exact Config.answer_eq_some.mpr ⟨req, h.answers t req a hpool⟩

theorem trans {σ₀ Op₀ : Type} {Res₀ : Op₀ → Type} {S₀ : System σ₀ Req Op₀ Res₀ α}
    {abs₀ : σ → σ₀} {s₀ : σ₀} {cs : List (Action Req)} {e : Config σ₀ Req Op₀ Res₀ α}
    (h : Explains S abs s as c bs d) (h₀ : Explains S₀ abs₀ s₀ bs d cs e) :
    Explains S₀ (abs₀ ∘ abs) s₀ as c cs e where
  sublist := h₀.sublist.trans h.sublist
  run := h₀.run
  length_eq := h₀.length_eq.trans h.length_eq
  answers t req a hret := h₀.answers t req a (h.answers t req a hret)
  settles hq := by
    rw [h₀.settles (h.quiescent hq), h.settles hq]
    rfl

end Explains

section
variable {D : Discipline Op Res Op' Res' Stage} {S : System σ Req Op Res α}
  {S' : System σ' Req Op' Res' α} {permitted : (ℕ → Stage) → Op' → Prop}
  {I : σ → σ' → (ℕ → Stage) → Prop} {ok : Config σ' Req Op' Res' α → Action Req → Bool}
  {abs : σ' → σ} {s : σ} {s' : σ'} {as : List (Action Req)} {c : Config σ' Req Op' Res' α}

theorem System.Refines.exists_explains_with (hR : S.Refines D S' permitted I)
    (hok : System.Guards D permitted ok)
    (habs : ∀ a a' φ, I a a' φ → (∀ t, φ t = D.idle) → a = abs a')
    (hinit : I s s' fun _ => D.idle) (h : S'.replay ok (Config.init s') as = some c) :
    ∃ bs d φ, Explains S abs s as c bs d ∧ I d.shared c.shared φ := by
  have hmatches : D.Matches (fun _ => D.idle) (Config.init s : Config σ Req Op Res α).pool
      (Config.init s' : Config σ' Req Op' Res' α).pool := .nil
  obtain ⟨bs, d, φ, hsub, hreplay, hd, hI⟩ := hR.exists_replay hok hmatches hinit h
  refine ⟨bs, d, φ, ⟨hsub, hreplay, hd.length_eq, fun _ _ _ => hd.answers, fun hq => ?_⟩, hI⟩
  exact habs _ _ φ hI (System.idle_of_quiescent hd hq)

theorem System.Refines.exists_explains (hR : S.Refines D S' permitted I)
    (hok : System.Guards D permitted ok)
    (habs : ∀ a a' φ, I a a' φ → (∀ t, φ t = D.idle) → a = abs a')
    (hinit : I s s' fun _ => D.idle) (h : S'.replay ok (Config.init s') as = some c) :
    ∃ bs d, Explains S abs s as c bs d := by
  obtain ⟨bs, d, -, hexplains, -⟩ := hR.exists_explains_with hok habs hinit h
  exact ⟨bs, d, hexplains⟩

end
end Interleaving
