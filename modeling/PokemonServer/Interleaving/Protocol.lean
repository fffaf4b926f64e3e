import PokemonServer.Interleaving.System

/-!
# Protocols followed by the threads of a system

A protocol says, for each request, which operations a thread may execute in
which phase and where each result leads. When every program of a system follows
the protocol, every configuration is abstracted by its `View`: the shared state,
the phase of each thread and the history. Invariants are then proved on views,
one operation at a time, without the code of the programs.
-/

namespace Interleaving

structure Protocol (Req Op : Type) (Res : Op → Type) (Phase : Type) where
  start : Req → Phase
  next : Req → Phase → (op : Op) → Res op → Option Phase
  final : Phase → Prop

structure View (σ Req Op : Type) (Res : Op → Type) (Phase : Type) where
  shared : σ
  phases : ℕ → Option (Req × Phase)
  log : List (Event Op Res)

variable {σ Req Op : Type} {Res : Op → Type} {Phase α : Type}

namespace Protocol

/-- The program keeps to the protocol from phase `φ` on, for every possible result. -/
def Follows (P : Protocol Req Op Res Phase) (possible : (op : Op) → Res op → Prop) (req : Req) :
    Phase → Prog Op Res α → Prop
  | φ, .ret _ => P.final φ
  | φ, .call op next => ∀ r, possible op r →
      ∃ φ', P.next req φ op r = some φ' ∧ P.Follows possible req φ' (next r)

def phase (P : Protocol Req Op Res Phase) (req : Req) (t : ℕ) :
    List (Event Op Res) → Option Phase
  | [] => some (P.start req)
  | e :: es => if e.tid = t then (P.phase req t es).bind fun φ => P.next req φ e.op e.res
      else P.phase req t es

def view (P : Protocol Req Op Res Phase) (c : Config σ Req Op Res α) :
    View σ Req Op Res Phase where
  shared := c.shared
  phases t := c.pool[t]?.bind fun th => (P.phase th.req t c.log).map fun φ => (th.req, φ)
  log := c.log

theorem phase_of_fresh {P : Protocol Req Op Res Phase} {req : Req} {t : ℕ}
    {log : List (Event Op Res)} (h : ∀ e ∈ log, e.tid < t) :
    P.phase req t log = some (P.start req) := by
  induction log with
  | nil => rfl
  | cons e es ih =>
    have hne : e.tid ≠ t := (h e List.mem_cons_self).ne
    simp only [phase, if_neg hne]
    exact ih fun e' he' => h e' (List.mem_cons_of_mem _ he')

theorem phase_induction {P : Protocol Req Op Res Phase} {req : Req} {I : Phase → Prop}
    (hstart : I (P.start req))
    (hnext : ∀ φ op res φ', I φ → P.next req φ op res = some φ' → I φ') {t : ℕ}
    {log : List (Event Op Res)} {φ : Phase} (h : P.phase req t log = some φ) : I φ := by
  induction log generalizing φ with
  | nil =>
    cases h
    exact hstart
  | cons e es ih =>
    simp only [phase] at h
    split at h
    · obtain ⟨φ₀, hφ₀, hφ⟩ := Option.bind_eq_some_iff.mp h
      exact hnext φ₀ e.op e.res φ (ih hφ₀) hφ
    · exact ih h

/-- Views reached by the protocol alone: requests satisfying `allowed` start,
operations satisfying `guard` are executed. -/
inductive ViewReachable (P : Protocol Req Op Res Phase) (S : System σ Req Op Res α)
    (allowed : Req → Prop) (guard : View σ Req Op Res Phase → ℕ → Req → Op → Prop) (s : σ) :
    View σ Req Op Res Phase → Prop
  | init : P.ViewReachable S allowed guard s ⟨s, fun _ => none, []⟩
  | start {v : View σ Req Op Res Phase} {n : ℕ} {req : Req} :
      P.ViewReachable S allowed guard s v → v.phases n = none → allowed req →
      P.ViewReachable S allowed guard s
        { v with phases := Function.update v.phases n (some (req, P.start req)) }
  | op {v : View σ Req Op Res Phase} {t : ℕ} {req : Req} {φ φ' : Phase} {op : Op} :
      P.ViewReachable S allowed guard s v → v.phases t = some (req, φ) →
      S.enabled op v.shared = true → guard v t req op →
      P.next req φ op (S.exec op v.shared).1 = some φ' →
      P.ViewReachable S allowed guard s
        ⟨(S.exec op v.shared).2, Function.update v.phases t (some (req, φ')),
          ⟨t, op, (S.exec op v.shared).1⟩ :: v.log⟩

theorem ViewReachable.allowed {P : Protocol Req Op Res Phase} {S : System σ Req Op Res α}
    {allowed : Req → Prop} {guard : View σ Req Op Res Phase → ℕ → Req → Op → Prop} {s : σ}
    {v : View σ Req Op Res Phase} (h : P.ViewReachable S allowed guard s v) {t : ℕ} {req : Req}
    {φ : Phase} (ht : v.phases t = some (req, φ)) : allowed req := by
  induction h generalizing φ with
  | init => cases ht
  | @start v n req' _ _ hreq ih =>
    by_cases htn : t = n
    · simp only [htn, Function.update_self, Option.some.injEq, Prod.mk.injEq] at ht
      exact ht.1 ▸ hreq
    · exact ih (by simpa [htn] using ht)
  | @op v u req' _ _ _ _ hu _ _ _ ih =>
    by_cases htu : t = u
    · subst htu
      simp only [Function.update_self, Option.some.injEq, Prod.mk.injEq] at ht
      obtain ⟨rfl, -⟩ := ht
      exact ih hu
    · exact ih (by simpa [htu] using ht)

def guarded (P : Protocol Req Op Res Phase) (allowed : Req → Prop)
    (guard : View σ Req Op Res Phase → ℕ → Req → Op → Prop) (c : Config σ Req Op Res α) :
    Action Req → Prop
  | .start req => allowed req
  | .run t => ∀ req op, c.AboutTo t req op → guard (P.view c) t req op

def guardTest (start : Req → Bool) (op : Config σ Req Op Res α → ℕ → Req → Op → Bool)
    (c : Config σ Req Op Res α) : Action Req → Bool
  | .start req => start req
  | .run t =>
    match c.pool[t]? with
    | some ⟨req, .call o _⟩ => op c t req o
    | _ => true

theorem guarded_of_guardTest {P : Protocol Req Op Res Phase} {allowed : Req → Prop}
    {guard : View σ Req Op Res Phase → ℕ → Req → Op → Prop} {start : Req → Bool}
    {op : Config σ Req Op Res α → ℕ → Req → Op → Bool}
    (hstart : ∀ req, start req = true → allowed req)
    (hop : ∀ c t req o, op c t req o = true → guard (P.view c) t req o)
    {c : Config σ Req Op Res α} {a : Action Req} (h : guardTest start op c a = true) :
    P.guarded allowed guard c a := by
  cases a with
  | start req => exact hstart req h
  | run t =>
    rintro req o ⟨next, hpool⟩
    simp only [guardTest, hpool] at h
    exact hop c t req o h

theorem exists_guarded_of_replay {P : Protocol Req Op Res Phase} {S : System σ Req Op Res α}
    {allowed : Req → Prop} {guard : View σ Req Op Res Phase → ℕ → Req → Op → Prop}
    (start : Req → Bool) (op : Config σ Req Op Res α → ℕ → Req → Op → Bool)
    (hstart : ∀ req, start req = true → allowed req)
    (hop : ∀ c t req o, op c t req o = true → guard (P.view c) t req o) {s : σ}
    (as : List (Action Req)) (check : Config σ Req Op Res α → Bool)
    (h : (S.replay (guardTest start op) (Config.init s) as).any check = true) :
    ∃ c, S.Reachable (P.guarded allowed guard) s c ∧ check c = true :=
  System.exists_reachable_of_replay _ (fun _ _ => guarded_of_guardTest hstart hop) as check h

structure Tracks (P : Protocol Req Op Res Phase) (possible : (op : Op) → Res op → Prop)
    (c : Config σ Req Op Res α) : Prop where
  fresh : ∀ e ∈ c.log, e.tid < c.pool.length
  follows : ∀ t th, c.pool[t]? = some th →
    ∃ φ, P.phase th.req t c.log = some φ ∧ P.Follows possible th.req φ th.prog

variable {P : Protocol Req Op Res Phase} {possible : (op : Op) → Res op → Prop}
  {S : System σ Req Op Res α}

theorem tracks_init (s : σ) : P.Tracks possible (Config.init s : Config σ Req Op Res α) where
  fresh := by simp [Config.init]
  follows := by simp [Config.init]

theorem Tracks.start {c : Config σ Req Op Res α} (h : P.Tracks possible c) {req : Req}
    (hcode : P.Follows possible req (P.start req) (S.code req)) :
    P.Tracks possible { c with pool := c.pool ++ [⟨req, S.code req⟩] } where
  fresh e he := by
    have := h.fresh e he
    simp only [List.length_append, List.length_singleton]
    omega
  follows t th hth := by
    rcases lt_or_ge t c.pool.length with hlt | hge
    · rw [List.getElem?_append_left hlt] at hth
      exact h.follows t th hth
    · rw [List.getElem?_append_right hge, List.getElem?_singleton] at hth
      split at hth
      · cases hth
        refine ⟨P.start req, phase_of_fresh fun e he => ?_, hcode⟩
        exact (h.fresh e he).trans_le hge
      · cases hth

theorem view_start {c : Config σ Req Op Res α} (h : P.Tracks possible c) (req : Req) :
    P.view { c with pool := c.pool ++ [⟨req, S.code req⟩] } =
      { P.view c with
        phases := Function.update (P.view c).phases c.pool.length (some (req, P.start req)) } := by
  simp only [view, View.mk.injEq, true_and, and_true]
  funext t
  rcases lt_trichotomy t c.pool.length with hlt | heq | hgt
  · rw [Function.update_of_ne hlt.ne, List.getElem?_append_left hlt]
  · subst heq
    simp [phase_of_fresh h.fresh]
  · rw [Function.update_of_ne hgt.ne', List.getElem?_eq_none hgt.le,
      List.getElem?_eq_none (by simp; omega)]

theorem Tracks.run (hpossible : ∀ op s, possible op (S.exec op s).1)
    {c : Config σ Req Op Res α} (h : P.Tracks possible c) {t : ℕ} {req : Req} {op : Op}
    {next : Res op → Prog Op Res α} (hpool : c.pool[t]? = some ⟨req, .call op next⟩) :
    ∃ φ φ', (P.view c).phases t = some (req, φ) ∧
      P.next req φ op (S.exec op c.shared).1 = some φ' ∧
      P.view (⟨(S.exec op c.shared).2, c.pool.set t ⟨req, next (S.exec op c.shared).1⟩,
        ⟨t, op, (S.exec op c.shared).1⟩ :: c.log⟩ : Config σ Req Op Res α) =
        ⟨(S.exec op c.shared).2, Function.update (P.view c).phases t (some (req, φ')),
          ⟨t, op, (S.exec op c.shared).1⟩ :: c.log⟩ ∧
      P.Tracks possible (⟨(S.exec op c.shared).2,
        c.pool.set t ⟨req, next (S.exec op c.shared).1⟩,
        ⟨t, op, (S.exec op c.shared).1⟩ :: c.log⟩ : Config σ Req Op Res α) := by
  obtain ⟨φ, hφ, hfollows⟩ := h.follows t _ hpool
  obtain ⟨φ', hnext, hrest⟩ := hfollows _ (hpossible op c.shared)
  have hlt : t < c.pool.length := (List.getElem?_eq_some_iff.mp hpool).1
  have hφ' : P.phase req t (⟨t, op, (S.exec op c.shared).1⟩ :: c.log) = some φ' := by
    simp only [phase, if_true]
    rw [hφ]
    exact hnext
  refine ⟨φ, φ', by simp [view, hpool, hφ], hnext, ?_, ?_, ?_⟩
  · simp only [view, View.mk.injEq, true_and, and_true]
    funext u
    by_cases hu : u = t
    · subst hu
      simp [hlt, hφ']
    · simp [Function.update_of_ne hu, List.getElem?_set_ne (Ne.symm hu), phase, Ne.symm hu]
  · intro e he
    simp only [List.length_set]
    rcases List.mem_cons.mp he with rfl | he
    · exact hlt
    · exact h.fresh e he
  · intro u th hth
    by_cases hu : u = t
    · subst hu
      simp only [List.getElem?_set_self hlt, Option.some.injEq] at hth
      subst hth
      exact ⟨φ', hφ', hrest⟩
    · simp only [List.getElem?_set_ne (Ne.symm hu)] at hth
      simpa [phase, Ne.symm hu] using h.follows u th hth

/-- The system refines the protocol: reachable configurations have reachable views. -/
theorem tracks_of_reachable (hpossible : ∀ op s, possible op (S.exec op s).1)
    {allowed : Req → Prop} {guard : View σ Req Op Res Phase → ℕ → Req → Op → Prop}
    (hcode : ∀ req, allowed req → P.Follows possible req (P.start req) (S.code req))
    {s : σ} {c : Config σ Req Op Res α} (h : S.Reachable (P.guarded allowed guard) s c) :
    P.Tracks possible c ∧ P.ViewReachable S allowed guard s (P.view c) := by
  induction h with
  | init => exact ⟨tracks_init s, .init⟩
  | @step c c' a _ hok hfire ih =>
    obtain ⟨htracks, hview⟩ := ih
    cases a with
    | start req =>
      cases hfire
      refine ⟨htracks.start (hcode req hok), ?_⟩
      rw [view_start htracks]
      exact hview.start (by simp [view]) hok
    | run t =>
      obtain ⟨req, op, next, hpool, henabled, rfl⟩ := System.fire_run hfire
      obtain ⟨φ, φ', hφ, hnext, hview', htracks'⟩ := htracks.run hpossible hpool
      refine ⟨htracks', ?_⟩
      rw [hview']
      exact hview.op hφ henabled (hok req op ⟨next, hpool⟩) hnext

theorem Tracks.exists_phase {c : Config σ Req Op Res α} (h : P.Tracks possible c) {t : ℕ}
    {req : Req} {p : Prog Op Res α} (hpool : c.pool[t]? = some ⟨req, p⟩) :
    ∃ φ, (P.view c).phases t = some (req, φ) ∧ P.Follows possible req φ p := by
  obtain ⟨φ, hφ, hfollows⟩ := h.follows t _ hpool
  exact ⟨φ, by simp [view, hpool, hφ], hfollows⟩

theorem pool_of_phases {c : Config σ Req Op Res α} {t : ℕ} {req : Req} {φ : Phase}
    (h : (P.view c).phases t = some (req, φ)) : ∃ p, c.pool[t]? = some ⟨req, p⟩ := by
  simp only [view, Option.bind_eq_some_iff, Option.map_eq_some_iff] at h
  obtain ⟨⟨req', p⟩, hth, φ', -, heq⟩ := h
  cases heq
  exact ⟨p, hth⟩

theorem Tracks.final {c : Config σ Req Op Res α} (h : P.Tracks possible c) {t : ℕ} {req : Req}
    {φ : Phase} (hφ : (P.view c).phases t = some (req, φ))
    (hidle : ∀ th, c.pool[t]? = some th → ∃ a, th.prog = .ret a) : P.final φ := by
  simp only [view, Option.bind_eq_some_iff, Option.map_eq_some_iff] at hφ
  obtain ⟨th, hth, φ', hφ', heq⟩ := hφ
  obtain ⟨φ'', hφ'', hfollows⟩ := h.follows t th hth
  obtain ⟨a, ha⟩ := hidle th hth
  have : φ'' = φ := by simp_all
  rw [ha, this] at hfollows
  exact hfollows

def threads (phases : ℕ → Option (Req × Phase)) (p : Req → Phase → Prop) : Set ℕ :=
  {t | ∃ req φ, phases t = some (req, φ) ∧ p req φ}

variable {phases : ℕ → Option (Req × Phase)} {p : Req → Phase → Prop} {t : ℕ} {req : Req}
  {φ φ' : Phase}

theorem mem_threads (h : phases t = some (req, φ)) : t ∈ threads phases p ↔ p req φ := by
  constructor
  · rintro ⟨req', φ', h', hp⟩
    rw [h] at h'
    cases h'
    exact hp
  · exact fun hp => ⟨req, φ, h, hp⟩

theorem forall_update {K : Req → Phase → Prop} (hself : K req φ)
    (hother : ∀ u req' ψ, u ≠ t → phases u = some (req', ψ) → K req' ψ) :
    ∀ u req' ψ, Function.update phases t (some (req, φ)) u = some (req', ψ) → K req' ψ := by
  intro u req' ψ hu
  by_cases hut : u = t
  · rw [hut, Function.update_self] at hu
    cases hu
    exact hself
  · rw [Function.update_of_ne hut] at hu
    exact hother u req' ψ hut hu

theorem threads_none : threads (fun _ : ℕ => (none : Option (Req × Phase))) p = ∅ := by
  ext t
  simp [threads]

theorem mem_threads_update {u : ℕ} :
    u ∈ threads (Function.update phases t (some (req, φ))) p ↔
      u = t ∧ p req φ ∨ u ≠ t ∧ u ∈ threads phases p := by
  by_cases hu : u = t
  · subst hu
    simp [threads]
  · simp [threads, hu]

theorem threads_update_pos (hp : p req φ) :
    threads (Function.update phases t (some (req, φ))) p = insert t (threads phases p) := by
  ext u
  rw [mem_threads_update, Set.mem_insert_iff]
  by_cases hu : u = t <;> simp [hu, hp]

theorem threads_update_neg (hp : ¬ p req φ) :
    threads (Function.update phases t (some (req, φ))) p = threads phases p \ {t} := by
  ext u
  rw [mem_threads_update, Set.mem_sdiff, Set.mem_singleton_iff]
  by_cases hu : u = t <;> simp [hu, hp]

theorem subset_threads_update (h : phases t = some (req, φ)) (hp : p req φ → p req φ') :
    threads phases p ⊆ threads (Function.update phases t (some (req, φ'))) p := by
  intro u hu
  rw [mem_threads_update]
  by_cases hut : u = t
  · subst hut
    exact Or.inl ⟨rfl, hp ((mem_threads h).mp hu)⟩
  · exact Or.inr ⟨hut, hu⟩

theorem threads_update_subset (h : phases t = some (req, φ)) (hp : p req φ' → p req φ) :
    threads (Function.update phases t (some (req, φ'))) p ⊆ threads phases p := by
  intro u hu
  rcases mem_threads_update.mp hu with ⟨rfl, hφ'⟩ | ⟨-, hu⟩
  · exact (mem_threads h).mpr (hp hφ')
  · exact hu

theorem threads_update_iff (h : phases t = some (req, φ)) (hp : p req φ' ↔ p req φ) :
    threads (Function.update phases t (some (req, φ'))) p = threads phases p :=
  (threads_update_subset h hp.mp).antisymm (subset_threads_update h hp.mpr)

theorem threads_start (h : phases t = none) (hp : ¬ p req φ) :
    threads (Function.update phases t (some (req, φ))) p = threads phases p := by
  rw [threads_update_neg hp, Set.sdiff_singleton_eq_self]
  rintro ⟨req', φ', h', -⟩
  rw [h] at h'
  cases h'

theorem subset_threads_start (h : phases t = none) :
    threads phases p ⊆ threads (Function.update phases t (some (req, φ))) p := by
  intro u hu
  refine mem_threads_update.mpr (Or.inr ⟨?_, hu⟩)
  rintro rfl
  obtain ⟨req', φ', h', -⟩ := hu
  rw [h] at h'
  cases h'

def anyThread (P : Protocol Req Op Res Phase) (c : Config σ Req Op Res α)
    (p : Req → Phase → Bool) : Bool :=
  (List.range c.pool.length).any fun t =>
    match (P.view c).phases t with
    | some (req, φ) => p req φ
    | none => false

theorem anyThread_iff {P : Protocol Req Op Res Phase} {c : Config σ Req Op Res α}
    {p : Req → Phase → Bool} :
    P.anyThread c p = true ↔ (threads (P.view c).phases fun req φ => p req φ = true).Nonempty := by
  simp only [anyThread, List.any_eq_true, List.mem_range, Set.Nonempty, threads, Set.mem_ofPred_eq]
  constructor
  · rintro ⟨t, -, ht⟩
    split at ht
    · rename_i req φ hφ
      exact ⟨t, req, φ, hφ, ht⟩
    · cases ht
  · rintro ⟨t, req, φ, hφ, hp⟩
    refine ⟨t, ?_, by rw [hφ]; exact hp⟩
    by_contra hge
    simp [view, List.getElem?_eq_none (not_lt.mp hge)] at hφ

end Protocol
end Interleaving
