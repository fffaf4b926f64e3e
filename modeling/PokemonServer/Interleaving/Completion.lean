import PokemonServer.Interleaving.System

/-!
# From progress to completion

Programs are finite, so a pool that starts nothing new cannot run for ever: it comes to
a configuration in which no thread can move. If in every reachable configuration that is
not quiescent some thread can move, then all threads have returned there.
-/

namespace Interleaving

variable {σ Req Op α : Type} {Res : Op → Type}

namespace Prog

inductive Rest : Prog Op Res α → Prog Op Res α → Prop
  | mk {op : Op} {next : Res op → Prog Op Res α} (r : Res op) : Rest (next r) (.call op next)

theorem rest_wellFounded : WellFounded (Rest : Prog Op Res α → Prog Op Res α → Prop) := by
  refine ⟨fun p => ?_⟩
  induction p with
  | ret a =>
    refine ⟨_, fun q hq => ?_⟩
    cases hq
  | call op next ih =>
    refine ⟨_, fun q hq => ?_⟩
    cases hq with
    | mk r => exact ih r

end Prog

def Config.programs (c : Config σ Req Op Res α) : Multiset (Prog Op Res α) :=
  c.pool.map Thread.prog

def Action.requests : Action Req → List Req
  | .start req => [req]
  | .run _ => []

namespace System
variable {S : System σ Req Op Res α} {ok : Config σ Req Op Res α → Action Req → Prop} {s : σ}
  {c c' d : Config σ Req Op Res α}

theorem cutExpand_of_fire {t : ℕ} (h : S.fire c (.run t) = some c') :
    Relation.CutExpand Prog.Rest c'.programs c.programs := by
  obtain ⟨req, op, next, hpool, -, rfl⟩ := fire_run h
  obtain ⟨hlt, heq⟩ := List.getElem?_eq_some_iff.mp hpool
  have hbefore : c.programs = .call op next ::ₘ (c.pool.eraseIdx t).map Thread.prog := by
    have hperm := List.set_perm_cons_eraseIdx hlt c.pool[t]
    rw [List.set_getElem_self] at hperm
    have hmap := hperm.map Thread.prog
    rw [List.map_cons, heq] at hmap
    exact Multiset.coe_eq_coe.mpr hmap
  have hafter : (Config.programs ⟨(S.exec op c.shared).2,
      c.pool.set t ⟨req, next (S.exec op c.shared).1⟩,
      ⟨t, op, (S.exec op c.shared).1⟩ :: c.log⟩ : Multiset (Prog Op Res α)) =
      next (S.exec op c.shared).1 ::ₘ (c.pool.eraseIdx t).map Thread.prog := by
    have hmap := (List.set_perm_cons_eraseIdx hlt
      (⟨req, next (S.exec op c.shared).1⟩ : Thread Req Op Res α)).map Thread.prog
    exact Multiset.coe_eq_coe.mpr hmap
  rw [hbefore, hafter, ← Multiset.singleton_add, ← Multiset.singleton_add]
  exact Relation.cutExpand_single_add (.mk _) _

theorem ReachableFrom.head {a : Action Req} (hok : ok c a) (hfire : S.fire c a = some c')
    (h : S.ReachableFrom ok c' d) : S.ReachableFrom ok c d := by
  induction h with
  | refl => exact .step .refl hok hfire
  | step _ hok' hfire' ih => exact .step ih hok' hfire'

def OnlyRuns (_ : Config σ Req Op Res α) : Action Req → Prop
  | .start _ => False
  | .run _ => True

def Stuck (S : System σ Req Op Res α) (c : Config σ Req Op Res α) : Prop :=
  ∀ t, S.fire c (.run t) = none

theorem stuck_of_quiescent (h : c.Quiescent) : S.Stuck c := by
  intro t
  rw [Option.eq_none_iff_forall_not_mem]
  intro c' hfire
  obtain ⟨req, op, next, hpool, -, -⟩ := fire_run hfire
  obtain ⟨a, ha⟩ := h _ (List.mem_of_getElem? hpool)
  cases ha

def runsOnly (_ : Config σ Req Op Res α) : Action Req → Bool
  | .start _ => false
  | .run _ => true

theorem onlyRuns_of_runsOnly (c : Config σ Req Op Res α) (a : Action Req)
    (h : runsOnly c a = true) : OnlyRuns c a := by
  cases a with
  | start req => cases h
  | run t => trivial

theorem programs_wellFounded : WellFounded (InvImage (Relation.CutExpand Prog.Rest)
    (Config.programs : Config σ Req Op Res α → Multiset (Prog Op Res α))) :=
  InvImage.wf _ Prog.rest_wellFounded.cutExpand

/-- A pool that starts nothing new does not run for ever. -/
theorem not_forall_fire (S : System σ Req Op Res α) (f : ℕ → Config σ Req Op Res α) :
    ¬ ∀ n, ∃ t, S.fire (f n) (.run t) = some (f (n + 1)) := by
  intro h
  refine (wellFounded_iff_isEmpty_descending_chain.mp programs_wellFounded).false ⟨f, fun n => ?_⟩
  obtain ⟨t, hfire⟩ := h n
  exact cutExpand_of_fire hfire

theorem exists_stuck (S : System σ Req Op Res α) (c : Config σ Req Op Res α) :
    ∃ d, S.ReachableFrom OnlyRuns c d ∧ S.Stuck d := by
  induction c using programs_wellFounded.induction with
  | _ c ih =>
    by_cases hstuck : S.Stuck c
    · exact ⟨c, .refl, hstuck⟩
    · obtain ⟨t, ht⟩ := not_forall.mp hstuck
      obtain ⟨c', hfire⟩ := Option.ne_none_iff_exists'.mp ht
      obtain ⟨d, hrest, hd⟩ := ih c' (cutExpand_of_fire hfire)
      exact ⟨d, hrest.head (show OnlyRuns c (.run t) from trivial) hfire, hd⟩

theorem Reachable.onlyRuns (hok : ∀ c t, ok c (.run t)) (h : S.Reachable ok s c)
    (hrest : S.ReachableFrom OnlyRuns c d) : S.Reachable ok s d := by
  refine h.trans (fun c a ha => ?_) hrest
  cases a with
  | start req => exact ha.elim
  | run t => exact hok c t

theorem requests_of_fire {a : Action Req} (h : S.fire c a = some c') :
    c'.pool.map Thread.req = c.pool.map Thread.req ++ a.requests := by
  cases a with
  | start req =>
    cases h
    rw [List.map_append]
    rfl
  | run t =>
    obtain ⟨req, op, next, hpool, -, rfl⟩ := fire_run h
    obtain ⟨hlt, heq⟩ := List.getElem?_eq_some_iff.mp hpool
    have hsame : c.pool.set t ⟨req, .call op next⟩ = c.pool := by
      rw [← heq, List.set_getElem_self]
    have hmap := congrArg (List.map Thread.req) hsame
    rw [List.map_set] at hmap
    show (c.pool.set t _).map Thread.req = _ ++ []
    rw [List.map_set, List.append_nil]
    exact hmap

theorem requests_of_replay {ok : Config σ Req Op Res α → Action Req → Bool}
    {as : List (Action Req)} (h : S.replay ok c as = some c') :
    c'.pool.map Thread.req = c.pool.map Thread.req ++ as.flatMap Action.requests := by
  induction as generalizing c with
  | nil =>
    cases h
    exact (List.append_nil _).symm
  | cons a as ih =>
    simp only [replay] at h
    split at h
    · obtain ⟨d, hfire, hrest⟩ := Option.bind_eq_some_iff.mp h
      rw [ih hrest, requests_of_fire hfire, List.flatMap_cons, List.append_assoc]
    · cases h

theorem ReachableFrom.requests_eq (h : S.ReachableFrom OnlyRuns c d) :
    d.pool.map Thread.req = c.pool.map Thread.req := by
  induction h with
  | refl => rfl
  | @step d d' a _ ha hfire ih =>
    cases a with
    | start req => exact ha.elim
    | run t => rw [requests_of_fire hfire, ih, Action.requests, List.append_nil]

theorem exists_quiescent (hok : ∀ c t, ok c (.run t))
    (hprogress : ∀ c, S.Reachable ok s c → ¬ c.Quiescent → ∃ t c', S.fire c (.run t) = some c')
    (h : S.Reachable ok s c) : ∃ d, S.ReachableFrom OnlyRuns c d ∧ d.Quiescent := by
  obtain ⟨d, hrest, hstuck⟩ := exists_stuck S c
  refine ⟨d, hrest, ?_⟩
  by_contra hq
  obtain ⟨t, d', hfire⟩ := hprogress d (h.onlyRuns hok hrest) hq
  rw [hstuck t] at hfire
  cases hfire

end System

section
variable {ρ τ Op' Op'' : Type} {Res' : Op' → Type} {Res'' : Op'' → Type}
  {same : Op' → Op → Prop} {same' : Op'' → Op' → Prop}

/-- The two programs have returned the same, or wait at corresponding operations. -/
inductive Prog.Alike (same : Op' → Op → Prop) : Prog Op' Res' α → Prog Op Res α → Prop
  | ret (a : α) : Alike same (.ret a) (.ret a)
  | call {op : Op'} {next : Res' op → Prog Op' Res' α} {o : Op} {onext : Res o → Prog Op Res α} :
      same op o → Alike same (.call op next) (.call o onext)

theorem Prog.Alike.trans {p'' : Prog Op'' Res'' α} {p' : Prog Op' Res' α} {p : Prog Op Res α}
    (h' : Prog.Alike same' p'' p') (h : Prog.Alike same p' p) :
    Prog.Alike (Relation.Comp same' same) p'' p := by
  cases h' with
  | ret a =>
    cases h
    exact .ret a
  | call hop' =>
    cases h with
    | call hop => exact .call ⟨_, hop', hop⟩

structure StandAlike (same : Op' → Op → Prop) (c : Config ρ Req Op' Res' α)
    (d : Config σ Req Op Res α) : Prop where
  length_eq : c.pool.length = d.pool.length
  alike : ∀ (t : ℕ) (req : Req) (p' : Prog Op' Res' α), c.pool[t]? = some ⟨req, p'⟩ →
    ∃ p, d.pool[t]? = some ⟨req, p⟩ ∧ p'.Alike same p

namespace StandAlike
variable {b : Config τ Req Op'' Res'' α} {c : Config ρ Req Op' Res' α} {d : Config σ Req Op Res α}

theorem trans (h' : StandAlike same' b c) (h : StandAlike same c d) :
    StandAlike (Relation.Comp same' same) b d where
  length_eq := h'.length_eq.trans h.length_eq
  alike t req p'' hp'' := by
    obtain ⟨p', hp', halike'⟩ := h'.alike t req p'' hp''
    obtain ⟨p, hp, halike⟩ := h.alike t req p' hp'
    exact ⟨p, hp, halike'.trans halike⟩

theorem requests_eq (h : StandAlike same c d) : c.pool.map Thread.req = d.pool.map Thread.req := by
  refine List.ext_getElem (by simp [h.length_eq]) fun t hc hd => ?_
  rw [List.length_map] at hc
  obtain ⟨p, hp, -⟩ := h.alike t c.pool[t].req c.pool[t].prog (List.getElem?_eq_getElem hc)
  obtain ⟨_, heq⟩ := List.getElem?_eq_some_iff.mp hp
  rw [List.getElem_map, List.getElem_map, heq]

theorem returned (h : StandAlike same c d) {t : ℕ} {req : Req} {a : α}
    (hret : d.pool[t]? = some ⟨req, .ret a⟩) : c.pool[t]? = some ⟨req, .ret a⟩ := by
  have hlt : t < c.pool.length := by
    rw [h.length_eq]
    exact (List.getElem?_eq_some_iff.mp hret).1
  obtain ⟨⟨req', p'⟩, hp'⟩ : ∃ th, c.pool[t]? = some th := ⟨_, List.getElem?_eq_getElem hlt⟩
  obtain ⟨p, hp, halike⟩ := h.alike t req' p' hp'
  rw [hret] at hp
  cases hp
  cases halike
  exact hp'

end StandAlike
end
end Interleaving
