import PokemonServer.Interleaving.System

/-!
# What a program has exchanged

A path leads from a program through operations with their results to what is left
of it. In every reachable configuration the history holds, for each thread, a path
from its code to its present program; a program obtained by `expand` has the path
of the original with every exchange replaced by a path of its expansion.
-/

namespace Interleaving
open Prog

structure Exchange (Op : Type) (Res : Op → Type) where
  op : Op
  res : Res op

variable {σ Req Op Op' α β : Type} {Res : Op → Type} {Res' : Op' → Type}

inductive Path : Prog Op Res α → List (Exchange Op Res) → Prog Op Res α → Prop
  | nil {p : Prog Op Res α} : Path p [] p
  | cons {o : Op} {next : Res o → Prog Op Res α} {r : Res o} {es : List (Exchange Op Res)}
      {q : Prog Op Res α} : Path (next r) es q → Path (.call o next) (⟨o, r⟩ :: es) q

namespace Path

theorem ret_iff {a : α} {es : List (Exchange Op Res)} {q : Prog Op Res α} :
    Path (.ret a) es q ↔ es = [] ∧ q = .ret a := by
  constructor
  · intro h
    cases h
    exact ⟨rfl, rfl⟩
  · intro h
    rw [h.1, h.2]
    exact .nil

theorem nil_iff {p q : Prog Op Res α} : Path p [] q ↔ p = q := by
  constructor
  · intro h
    cases h
    rfl
  · rintro rfl
    exact .nil

theorem cons_iff {p q : Prog Op Res α} {x : Exchange Op Res} {es : List (Exchange Op Res)} :
    Path p (x :: es) q ↔ ∃ next, p = .call x.op next ∧ Path (next x.res) es q := by
  constructor
  · intro h
    cases h with
    | cons h => exact ⟨_, rfl, h⟩
  · rintro ⟨next, rfl, h⟩
    exact .cons h

theorem call_ret_iff {o : Op} {next : Res o → Prog Op Res α} {es : List (Exchange Op Res)}
    {a : α} : Path (.call o next) es (.ret a) ↔
      ∃ r fs, es = ⟨o, r⟩ :: fs ∧ Path (next r) fs (.ret a) := by
  constructor
  · intro h
    cases h with
    | cons h => exact ⟨_, _, rfl, h⟩
  · rintro ⟨r, fs, rfl, h⟩
    exact .cons h

theorem snoc {p : Prog Op Res α} {es : List (Exchange Op Res)} {o : Op}
    {next : Res o → Prog Op Res α} (h : Path p es (.call o next)) (r : Res o) :
    Path p (es ++ [⟨o, r⟩]) (next r) := by
  generalize hq : Prog.call o next = q at h
  induction h with
  | nil => exact hq ▸ .cons .nil
  | cons _ ih => exact .cons (ih hq)

theorem bind {p q : Prog Op Res α} {es : List (Exchange Op Res)} (h : Path p es q)
    (k : α → Prog Op Res β) : Path (p >>= k) es (q >>= k) := by
  induction h with
  | nil => exact .nil
  | cons _ ih => exact .cons ih

theorem bind_ret_iff {p : Prog Op Res α} {f : α → Prog Op Res β} {es : List (Exchange Op Res)}
    {b : β} : Path (p >>= f) es (.ret b) ↔
      ∃ a fs gs, es = fs ++ gs ∧ Path p fs (.ret a) ∧ Path (f a) gs (.ret b) := by
  induction p generalizing es with
  | ret a =>
    constructor
    · intro h
      exact ⟨a, [], es, rfl, .nil, h⟩
    · rintro ⟨a', fs, gs, rfl, hp, hf⟩
      obtain ⟨rfl, ha⟩ := ret_iff.mp hp
      cases ha
      exact hf
  | call o next ih =>
    rw [call_bind, call_ret_iff]
    constructor
    · rintro ⟨r, fs, rfl, h⟩
      obtain ⟨a, fs', gs, rfl, hp, hf⟩ := (ih r).mp h
      exact ⟨a, ⟨o, r⟩ :: fs', gs, rfl, .cons hp, hf⟩
    · rintro ⟨a, fs, gs, rfl, hp, hf⟩
      obtain ⟨r, fs', rfl, hnext⟩ := call_ret_iff.mp hp
      exact ⟨r, fs' ++ gs, rfl, (ih r).mpr ⟨a, fs', gs, rfl, hnext, hf⟩⟩

theorem issues {P : Op → Prop} {p q : Prog Op Res α} {es : List (Exchange Op Res)}
    (h : Path p es q) (hp : p.Issues P) : q.Issues P := by
  induction h with
  | nil => exact hp
  | cons _ ih => exact ih (hp.2 _)

theorem issuedGiven {possible : (o : Op) → Res o → Prop} {P : Op → Prop} {p q : Prog Op Res α}
    {es : List (Exchange Op Res)} (h : Path p es q) (hes : ∀ x ∈ es, possible x.op x.res)
    (hp : p.IssuesGiven possible P) : (∀ x ∈ es, P x.op) ∧ q.IssuesGiven possible P := by
  induction h with
  | nil => exact ⟨by simp, hp⟩
  | @cons o next r es q _ ih =>
    obtain ⟨hrest, hq⟩ := ih (fun x hx => hes x (List.mem_cons_of_mem _ hx))
      (hp.2 r (hes _ List.mem_cons_self))
    refine ⟨fun x hx => ?_, hq⟩
    rcases List.mem_cons.mp hx with rfl | hx
    · exact hp.1
    · exact hrest x hx

theorem issued {P : Op → Prop} {p q : Prog Op Res α} {es : List (Exchange Op Res)}
    (h : Path p es q) (hp : p.Issues P) : ∀ x ∈ es, P x.op :=
  (h.issuedGiven (fun _ _ => trivial) (hp.given fun _ _ => True)).1

end Path

/-- The exchanges `es` realise the exchanges `xs` of the original program. -/
inductive Expands (f : (o : Op) → Prog Op' Res' (Res o)) :
    List (Exchange Op Res) → List (Exchange Op' Res') → Prop
  | nil : Expands f [] []
  | cons {o : Op} {r : Res o} {fs gs : List (Exchange Op' Res')} {xs : List (Exchange Op Res)} :
      Path (f o) fs (.ret r) → Expands f xs gs → Expands f (⟨o, r⟩ :: xs) (fs ++ gs)

theorem Path.of_expand {f : (o : Op) → Prog Op' Res' (Res o)} {p : Prog Op Res α}
    {es : List (Exchange Op' Res')} {a : α} (h : Path (p.expand f) es (.ret a)) :
    ∃ xs, Path p xs (.ret a) ∧ Expands f xs es := by
  induction p generalizing es with
  | ret b =>
    rw [expand_ret, Path.ret_iff] at h
    obtain ⟨rfl, hb⟩ := h
    cases hb
    exact ⟨[], .nil, .nil⟩
  | call o next ih =>
    rw [expand_call, Path.bind_ret_iff] at h
    obtain ⟨r, fs, gs, rfl, hf, hrest⟩ := h
    obtain ⟨xs, hpath, hexp⟩ := ih r hrest
    exact ⟨⟨o, r⟩ :: xs, .cons hpath, .cons hf hexp⟩

theorem filterMap_singleton {α γ : Type} (look : α → Option γ) (x : α) :
    [x].filterMap look = (look x).toList := by
  rw [List.filterMap_cons]
  cases look x <;> rfl

theorem Expands.filterMap_eq {γ : Type} {f : (o : Op) → Prog Op' Res' (Res o)}
    {look : Exchange Op Res → Option γ} {look' : Exchange Op' Res' → Option γ}
    (hf : ∀ o fs r, Path (f o) fs (.ret r) → fs.filterMap look' = (look ⟨o, r⟩).toList)
    {xs : List (Exchange Op Res)} {es : List (Exchange Op' Res')} (h : Expands f xs es) :
    es.filterMap look' = xs.filterMap look := by
  induction h with
  | nil => rfl
  | @cons o r fs gs xs hpath _ ih =>
    rw [List.filterMap_append, hf o fs r hpath, ih, List.filterMap_cons]
    cases look ⟨o, r⟩ <;> rfl

theorem Expands.filterMap_eq_of_op {γ : Type} {f : (o : Op) → Prog Op' Res' (Res o)}
    {look : Exchange Op Res → Option γ} {look' : Exchange Op' Res' → Option γ}
    (hf : ∀ o, ∃ (o' : Op') (value : Res' o' → Res o), f o = .call o' (fun r => .ret (value r)) ∧
      ∀ r, look' ⟨o', r⟩ = look ⟨o, value r⟩)
    {xs : List (Exchange Op Res)} {es : List (Exchange Op' Res')} (h : Expands f xs es) :
    es.filterMap look' = xs.filterMap look := by
  refine h.filterMap_eq fun o fs r hpath => ?_
  obtain ⟨o', value, hop, hlook⟩ := hf o
  rw [hop] at hpath
  obtain ⟨r', gs, rfl, hret⟩ := Path.call_ret_iff.mp hpath
  obtain ⟨rfl, heq⟩ := Path.ret_iff.mp hret
  cases heq
  rw [filterMap_singleton, hlook]

def history (t : ℕ) : List (Event Op Res) → List (Exchange Op Res)
  | [] => []
  | e :: es => if e.tid = t then history t es ++ [⟨e.op, e.res⟩] else history t es

theorem mem_history {t : ℕ} {o : Op} {r : Res o} {log : List (Event Op Res)} :
    ⟨o, r⟩ ∈ history t log ↔ ⟨t, o, r⟩ ∈ log := by
  induction log with
  | nil => simp [history]
  | cons e es ih =>
    obtain ⟨u, o', r'⟩ := e
    by_cases hu : u = t
    · simp [history, hu, ih, or_comm]
    · simp [history, hu, ih, Ne.symm hu]

theorem history_of_fresh {t : ℕ} {log : List (Event Op Res)} (h : ∀ e ∈ log, e.tid ≠ t) :
    history t log = [] := by
  induction log with
  | nil => rfl
  | cons e es ih =>
    rw [history, if_neg (h e List.mem_cons_self)]
    exact ih fun e' he' => h e' (List.mem_cons_of_mem _ he')

namespace System
variable {S : System σ Req Op Res α} {ok : Config σ Req Op Res α → Action Req → Prop} {s : σ}
  {c : Config σ Req Op Res α}

/-- Every thread has come from its code to its program by its own exchanges. -/
theorem path_of_reachable (h : S.Reachable ok s c) :
    (∀ e ∈ c.log, e.tid < c.pool.length) ∧
      ∀ t th, c.pool[t]? = some th → Path (S.code th.req) (history t c.log) th.prog := by
  induction h with
  | init => exact ⟨by simp [Config.init], by simp [Config.init]⟩
  | @step c c' a _ _ hfire ih =>
    obtain ⟨hfresh, hpath⟩ := ih
    cases a with
    | start req =>
      cases hfire
      refine ⟨fun e he => ?_, fun t th hth => ?_⟩
      · have := hfresh e he
        rw [List.length_append]
        omega
      · rcases lt_or_ge t c.pool.length with hlt | hge
        · rw [List.getElem?_append_left hlt] at hth
          exact hpath t th hth
        · rw [List.getElem?_append_right hge, List.getElem?_singleton] at hth
          split at hth
          · cases hth
            rw [history_of_fresh fun e he => ((hfresh e he).trans_le hge).ne]
            exact .nil
          · cases hth
    | run u =>
      obtain ⟨req, op, next, hpool, -, rfl⟩ := fire_run hfire
      have hlt : u < c.pool.length := (List.getElem?_eq_some_iff.mp hpool).1
      refine ⟨fun e he => ?_, fun t th hth => ?_⟩
      · rw [List.length_set]
        rcases List.mem_cons.mp he with rfl | he
        · exact hlt
        · exact hfresh e he
      · by_cases htu : t = u
        · subst htu
          rw [List.getElem?_set_self hlt] at hth
          cases hth
          rw [history, if_pos rfl]
          exact (hpath t _ hpool).snoc _
        · rw [List.getElem?_set_ne (Ne.symm htu)] at hth
          rw [history, if_neg (Ne.symm htu)]
          exact hpath t th hth

theorem invariant_of_reachable {I : σ → Prop} (hinit : I s)
    (hstep : ∀ op s', I s' → I (S.exec op s').2) (h : S.Reachable ok s c) :
    I c.shared ∧ ∀ e ∈ c.log, ∃ s', I s' ∧ e.res = (S.exec e.op s').1 := by
  induction h with
  | init => exact ⟨hinit, by simp [Config.init]⟩
  | @step c c' a _ _ hfire ih =>
    obtain ⟨hshared, hlog⟩ := ih
    cases a with
    | start req =>
      cases hfire
      exact ⟨hshared, hlog⟩
    | run t =>
      obtain ⟨req, op, next, -, -, rfl⟩ := fire_run hfire
      refine ⟨hstep op c.shared hshared, fun e he => ?_⟩
      rcases List.mem_cons.mp he with rfl | he
      · exact ⟨c.shared, hshared, rfl⟩
      · exact hlog e he

theorem executed_of_reachable (h : S.Reachable ok s c) :
    ∀ e ∈ c.log, ∃ s', e.res = (S.exec e.op s').1 := by
  intro e he
  obtain ⟨s', -, hs'⟩ :=
    (invariant_of_reachable (I := fun _ => True) trivial (fun _ _ _ => trivial) h).2 e he
  exact ⟨s', hs'⟩

/-- Every event was executed in a reachable configuration whose log it extended. -/
theorem exists_before (h : S.Reachable ok s c) {later earlier : List (Event Op Res)}
    {e : Event Op Res} (hlog : c.log = later ++ e :: earlier) :
    ∃ c' req next, S.Reachable ok s c' ∧ c'.log = earlier ∧
      c'.pool[e.tid]? = some ⟨req, .call e.op next⟩ ∧ ok c' (.run e.tid) ∧
      e.res = (S.exec e.op c'.shared).1 := by
  induction h generalizing later with
  | init => simp [Config.init] at hlog
  | @step c c' a hreach hok hfire ih =>
    cases a with
    | start req =>
      cases hfire
      exact ih hlog
    | run t =>
      obtain ⟨req, op, next, hpool, -, rfl⟩ := fire_run hfire
      cases later with
      | nil =>
        rw [List.nil_append, List.cons.injEq] at hlog
        obtain ⟨rfl, rfl⟩ := hlog
        exact ⟨c, req, next, hreach, rfl, hpool, hok, rfl⟩
      | cons e' later =>
        rw [List.cons_append, List.cons.injEq] at hlog
        exact ih hlog.2

theorem issued_of_reachable {P : Req → Op → Prop} (hcode : ∀ req, (S.code req).Issues (P req))
    (h : S.Reachable ok s c) {t : ℕ} {req : Req} {op : Op} (hop : c.AboutTo t req op) :
    P req op := by
  obtain ⟨next, hpool⟩ := hop
  exact (((path_of_reachable h).2 t _ hpool).issues (hcode req)).1

theorem issuedGiven_of_log {possible : (o : Op) → Res o → Prop} {P : Req → Op → Prop}
    (hlog : ∀ e ∈ c.log, possible e.op e.res)
    (hcode : ∀ req, (S.code req).IssuesGiven possible (P req)) (h : S.Reachable ok s c) :
    (∀ e ∈ c.log, ∃ th, c.pool[e.tid]? = some th ∧ P th.req e.op) ∧
      ∀ t req op, c.AboutTo t req op → P req op := by
  obtain ⟨hfresh, hpath⟩ := path_of_reachable h
  have hhistory : ∀ t, ∀ x ∈ history t c.log, possible x.op x.res := by
    rintro t ⟨o, r⟩ hx
    exact hlog _ (mem_history.mp hx)
  constructor
  · rintro ⟨t, o, r⟩ he
    obtain ⟨th, hth⟩ : ∃ th, c.pool[t]? = some th :=
      ⟨_, List.getElem?_eq_getElem (hfresh _ he)⟩
    have hissued := ((hpath t th hth).issuedGiven (hhistory t) (hcode th.req)).1
    exact ⟨th, hth, hissued ⟨o, r⟩ (mem_history.mpr he)⟩
  · rintro t req op ⟨next, hpool⟩
    exact ((hpath t _ hpool).issuedGiven (hhistory t) (hcode req)).2.1

theorem issuedGiven_of_reachable {possible : (o : Op) → Res o → Prop} {P : Req → Op → Prop}
    (hpossible : ∀ op s', possible op (S.exec op s').1)
    (hcode : ∀ req, (S.code req).IssuesGiven possible (P req)) (h : S.Reachable ok s c) :
    (∀ e ∈ c.log, ∃ th, c.pool[e.tid]? = some th ∧ P th.req e.op) ∧
      ∀ t req op, c.AboutTo t req op → P req op := by
  refine issuedGiven_of_log (fun e he => ?_) hcode h
  obtain ⟨s', hs'⟩ := executed_of_reachable h e he
  rw [hs']
  exact hpossible e.op s'

end System
end Interleaving
