import PokemonServer.Interleaving.Path

/-!
# Runs without some of their requests

`project` deletes from a schedule every action of the requests that are not kept, and
renumbers the others. When the operations of the deleted requests do not matter to the
kept ones, as a relation between the two shared states says, the projected schedule is
a schedule again and every kept program makes the same moves.
-/

namespace Interleaving

variable {σ Req Op : Type} {Res : Op → Type} {α : Type}

namespace Prog

/-- After an operation in `P`, the program does not look at the result. -/
def Ignores (P : Op → Prop) : Prog Op Res α → Prop
  | .ret _ => True
  | .call o next => (P o → ∀ r r', next r = next r') ∧ ∀ r, (next r).Ignores P

end Prog

theorem Path.ignores {P : Op → Prop} {p q : Prog Op Res α} {es : List (Exchange Op Res)}
    (h : Path p es q) (hp : p.Ignores P) : q.Ignores P := by
  induction h with
  | nil => exact hp
  | cons _ ih => exact ih (hp.2 _)

section lists
variable {β γ : Type}

theorem getElem?_filter_of_kept {p : β → Bool} {l : List β} {t : ℕ} {a : β}
    (h : l[t]? = some a) (ha : p a = true) :
    (l.filter p)[(l.take t).countP p]? = some a := by
  induction l generalizing t with
  | nil => cases h
  | cons b l ih =>
    cases t with
    | zero =>
      obtain rfl : b = a := by simpa using h
      simp [ha]
    | succ t =>
      have hrest := ih (t := t) (by simpa using h)
      by_cases hb : p b = true <;> simp [hb, hrest]

theorem filter_set_of_kept {p : β → Bool} {l : List β} {t : ℕ} {a b : β}
    (h : l[t]? = some a) (ha : p a = true) (hb : p b = true) :
    (l.set t b).filter p = (l.filter p).set ((l.take t).countP p) b := by
  induction l generalizing t with
  | nil => cases h
  | cons c l ih =>
    cases t with
    | zero =>
      obtain rfl : c = a := by simpa using h
      simp [ha, hb]
    | succ t =>
      have hrest := ih (t := t) (by simpa using h)
      by_cases hc : p c = true <;> simp [hc, hrest]

theorem filter_set_of_dropped {p : β → Bool} {l : List β} {t : ℕ} {a b : β}
    (h : l[t]? = some a) (ha : p a = false) (hb : p b = false) :
    (l.set t b).filter p = l.filter p := by
  induction l generalizing t with
  | nil => cases h
  | cons c l ih =>
    cases t with
    | zero =>
      obtain rfl : c = a := by simpa using h
      simp [ha, hb]
    | succ t =>
      have hrest := ih (t := t) (by simpa using h)
      by_cases hc : p c = true <;> simp [hc, hrest]

end lists

def projectAction (keep : Req → Bool) (started : List Req) : Action Req → Option (Action Req)
  | .start req => if keep req then some (.start req) else none
  | .run t =>
    if (started[t]?).any keep then some (.run ((started.take t).countP keep)) else none

def Action.startedAfter (started : List Req) : Action Req → List Req
  | .start req => started ++ [req]
  | .run _ => started

def project (keep : Req → Bool) : List Req → List (Action Req) → List (Action Req)
  | _, [] => []
  | started, a :: as =>
    (projectAction keep started a).toList ++ project keep (a.startedAfter started) as

namespace System

def opTest (test : Op → σ → Bool) (c : Config σ Req Op Res α) : Action Req → Bool
  | .start _ => true
  | .run t =>
    match c.pool[t]? with
    | some ⟨_, .call op _⟩ => test op c.shared
    | _ => true

variable {S : System σ Req Op Res α}

theorem ignores_of_reachable {ok : Config σ Req Op Res α → Action Req → Prop} {s : σ}
    {c : Config σ Req Op Res α} {P : Op → Prop} (hcode : ∀ req, (S.code req).Ignores P)
    (h : S.Reachable ok s c) {t : ℕ} {req : Req} {op : Op} {next : Res op → Prog Op Res α}
    (hpool : c.pool[t]? = some ⟨req, .call op next⟩) (hop : P op) (r r' : Res op) :
    next r = next r' :=
  (((path_of_reachable h).2 t _ hpool).ignores (hcode req)).1 hop r r'

/-- The relation `R` between the states of a run and of its projection is kept: a kept
request does the same in both, and a deleted one does not break it. -/
structure Projects (S : System σ Req Op Res α) (test : Op → σ → Bool) (keep : Req → Bool)
    (s : σ) (R : σ → σ → Prop) : Prop where
  kept : ∀ {c : Config σ Req Op Res α} {t : ℕ} {req : Req} {op : Op}
    {next : Res op → Prog Op Res α} {s' : σ}, S.Reachable (fun _ _ => True) s c →
    c.pool[t]? = some ⟨req, .call op next⟩ → keep req = true → test op c.shared = true →
    S.enabled op c.shared = true → R c.shared s' →
      test op s' = true ∧ S.enabled op s' = true ∧
        next (S.exec op s').1 = next (S.exec op c.shared).1 ∧
        R (S.exec op c.shared).2 (S.exec op s').2
  dropped : ∀ {c : Config σ Req Op Res α} {t : ℕ} {req : Req} {op : Op}
    {next : Res op → Prog Op Res α} {s' : σ}, S.Reachable (fun _ _ => True) s c →
    c.pool[t]? = some ⟨req, .call op next⟩ → keep req = false → R c.shared s' →
      R (S.exec op c.shared).2 s'

structure Follows (keep : Req → Bool) (R : σ → σ → Prop) (c c' : Config σ Req Op Res α) : Prop where
  shared : R c.shared c'.shared
  pool : c'.pool = c.pool.filter fun th => keep th.req

theorem map_req_fire {c e : Config σ Req Op Res α} {a : Action Req} (h : S.fire c a = some e) :
    e.pool.map Thread.req = a.startedAfter (c.pool.map Thread.req) := by
  cases a with
  | start req =>
    cases h
    exact List.map_append
  | run t =>
    obtain ⟨req, op, next, hat, -, rfl⟩ := fire_run h
    refine List.ext_getElem? fun u => ?_
    rw [Action.startedAfter, List.getElem?_map, List.getElem?_map, List.getElem?_set]
    by_cases hu : t = u
    · subst hu
      obtain ⟨hlt, hth⟩ := List.getElem?_eq_some_iff.mp hat
      simp [hlt, hth]
    · simp [hu]

namespace Projects
variable {test : Op → σ → Bool} {keep : Req → Bool} {s : σ} {R : σ → σ → Prop}
  {c c' d e : Config σ Req Op Res α}

theorem start (hfollows : Follows keep R c c') (req : Req) (started : List Req) :
    ∃ e', Follows keep R ⟨c.shared, c.pool ++ [⟨req, S.code req⟩], c.log⟩ e' ∧
      ∀ as, S.replay (opTest test) c' ((projectAction keep started (.start req)).toList ++ as) =
        S.replay (opTest test) e' as := by
  by_cases hkeep : keep req = true
  · refine ⟨⟨c'.shared, c'.pool ++ [⟨req, S.code req⟩], c'.log⟩,
      ⟨hfollows.shared, ?_⟩, fun as => ?_⟩
    · show c'.pool ++ _ = _
      rw [List.filter_append, hfollows.pool]
      simp [hkeep]
    · rw [projectAction, if_pos hkeep]
      rfl
  · refine ⟨c', ⟨hfollows.shared, ?_⟩, fun as => ?_⟩
    · rw [List.filter_append, hfollows.pool]
      simp [hkeep]
    · rw [projectAction, if_neg hkeep]
      rfl

theorem run (h : Projects S test keep s R) (hc : S.Reachable (fun _ _ => True) s c)
    (hfollows : Follows keep R c c') {t : ℕ} (htest : opTest test c (.run t) = true)
    (hfire : S.fire c (.run t) = some e) :
    ∃ e', Follows keep R e e' ∧ ∀ as, S.replay (opTest test) c'
        ((projectAction keep (c.pool.map Thread.req) (.run t)).toList ++ as) =
      S.replay (opTest test) e' as := by
  obtain ⟨req, op, next, hat, henabled, rfl⟩ := fire_run hfire
  have hreq : (c.pool.map Thread.req)[t]? = some req := by
    rw [List.getElem?_map, hat]
    rfl
  have hcount : ((c.pool.map Thread.req).take t).countP keep =
      (c.pool.take t).countP fun th => keep th.req := by
    rw [← List.map_take, List.countP_map]
    rfl
  simp only [opTest, hat] at htest
  simp only [projectAction, hreq, Option.any_some, hcount]
  by_cases hkeep : keep req = true
  · obtain ⟨htest', henabled', hnext, hR⟩ :=
      h.kept hc hat hkeep htest henabled hfollows.shared
    have hat' : c'.pool[(c.pool.take t).countP fun th => keep th.req]? =
        some ⟨req, .call op next⟩ := by
      rw [hfollows.pool]
      exact getElem?_filter_of_kept hat hkeep
    have hpool := filter_set_of_kept (p := fun th => keep th.req)
      (b := ⟨req, next (S.exec op c.shared).1⟩) hat hkeep hkeep
    generalize (c.pool.take t).countP (fun th => keep th.req) = u at hat' hpool ⊢
    refine ⟨⟨(S.exec op c'.shared).2, c'.pool.set u ⟨req, next (S.exec op c'.shared).1⟩,
      ⟨u, op, (S.exec op c'.shared).1⟩ :: c'.log⟩, ⟨hR, ?_⟩, fun as => ?_⟩
    · show c'.pool.set u _ = _
      rw [hnext, hfollows.pool, hpool]
    · simp [hkeep, replay, opTest, fire, hat', htest', henabled']
  · have hdropped : keep req = false := by simpa using hkeep
    refine ⟨c', ⟨h.dropped hc hat hdropped hfollows.shared, ?_⟩, fun as => ?_⟩
    · exact hfollows.pool.trans
        (filter_set_of_dropped (p := fun th => keep th.req) hat hdropped hdropped).symm
    · rw [if_neg hkeep]
      rfl

/-- The projection of a schedule is a schedule, and ends with the kept programs. -/
theorem replay (h : Projects S test keep s R) {as : List (Action Req)}
    (hc : S.Reachable (fun _ _ => True) s c) (hfollows : Follows keep R c c')
    (hd : S.replay (opTest test) c as = some d) :
    ∃ d', S.replay (opTest test) c' (project keep (c.pool.map Thread.req) as) = some d' ∧
      Follows keep R d d' := by
  induction as generalizing c c' with
  | nil =>
    cases hd
    exact ⟨c', rfl, hfollows⟩
  | cons a as ih =>
    rw [System.replay] at hd
    split at hd
    · rename_i htest
      obtain ⟨e, hfire, hd⟩ := Option.bind_eq_some_iff.mp hd
      have hstep : ∃ e', Follows keep R e e' ∧ ∀ as, S.replay (opTest test) c'
          ((projectAction keep (c.pool.map Thread.req) a).toList ++ as) =
            S.replay (opTest test) e' as := by
        cases a with
        | start req =>
          cases hfire
          exact start hfollows req _
        | run t => exact run h hc hfollows htest hfire
      obtain ⟨e', hfollows', hreplay⟩ := hstep
      rw [project, hreplay, ← map_req_fire hfire]
      exact ih (hc.step trivial hfire) hfollows' hd
    · cases hd

end Projects
end System
end Interleaving
