import PokemonServer.Interleaving.Completion
import PokemonServer.Interleaving.Refinement

/-!
# A mutex with exclusive and shared owners

Every thread is in some stage, and its stage says whether it owns the mutex, alone or
with others. The mutex itself is a flag for the exclusive owner and a counter of the
shared ones; `Held` says that the two agree with the stages of all threads. Where only
taking the mutex waits, some thread can always move.
-/

namespace Interleaving

inductive Ownership where
  | none
  | shared
  | exclusive
  deriving DecidableEq

variable {Stage : Type}

def owners (own : Stage → Ownership) (φ : ℕ → Stage) (k : Ownership) : Set ℕ := {t | own (φ t) = k}

structure Held (own : Stage → Ownership) (writer : Bool) (readers : ℕ) (φ : ℕ → Stage) : Prop where
  writer_iff : writer = true ↔ ∃ t, own (φ t) = .exclusive
  unique : ∀ t u, own (φ t) = .exclusive → own (φ u) = .exclusive → t = u
  finite : (owners own φ .shared).Finite
  readers_eq : (owners own φ .shared).ncard = readers
  apart : ∀ t u, own (φ t) = .exclusive → own (φ u) ≠ .shared

variable {own : Stage → Ownership} {writer : Bool} {readers : ℕ} {φ : ℕ → Stage} {φ' : Stage}
  {t : ℕ} {k : Ownership}

theorem owners_update_of_eq (h : own φ' = k) :
    owners own (Function.update φ t φ') k = insert t (owners own φ k) := by
  ext u
  by_cases hu : u = t
  · simp [owners, hu, h]
  · simp [owners, hu]

theorem owners_update_of_ne (h : own φ' ≠ k) :
    owners own (Function.update φ t φ') k = owners own φ k \ {t} := by
  ext u
  by_cases hu : u = t
  · simp [owners, hu, h]
  · simp [owners, hu]

namespace Held

theorem of_free (hfree : ∀ t, own (φ t) ≠ .exclusive) (hfinite : (owners own φ .shared).Finite)
    (hreaders : (owners own φ .shared).ncard = readers) : Held own false readers φ where
  writer_iff := by
    refine iff_of_false Bool.false_ne_true ?_
    rintro ⟨t, ht⟩
    exact hfree t ht
  unique t u ht := absurd ht (hfree t)
  finite := hfinite
  readers_eq := hreaders
  apart t u ht := absurd ht (hfree t)

theorem init {idle : Stage} (hidle : own idle = .none) : Held own false 0 fun _ => idle := by
  have hempty : owners own (fun _ => idle) .shared = ∅ := by
    ext t
    simp [owners, hidle]
  refine of_free (fun t => ?_) ?_ ?_
  · rw [hidle]
    exact Ownership.noConfusion
  · rw [hempty]
    exact Set.finite_empty
  · rw [hempty, Set.ncard_empty]

theorem writer_of_exclusive (h : Held own writer readers φ) (ht : own (φ t) = .exclusive) :
    writer = true := h.writer_iff.mpr ⟨t, ht⟩

theorem not_exclusive (h : Held own false readers φ) (t : ℕ) : own (φ t) ≠ .exclusive :=
  fun ht => Bool.false_ne_true (h.writer_of_exclusive ht)

theorem not_writer_of_shared (h : Held own writer readers φ) (ht : own (φ t) = .shared) :
    writer = false := by
  rw [Bool.eq_false_iff]
  intro hwriter
  obtain ⟨u, hu⟩ := h.writer_iff.mp hwriter
  exact h.apart u t hu ht

theorem exists_shared (h : Held own writer readers φ) (hreaders : readers ≠ 0) :
    ∃ t, own (φ t) = .shared := by
  have hcard : (owners own φ .shared).ncard ≠ 0 := by
    rw [h.readers_eq]
    exact hreaders
  exact Set.nonempty_of_ncard_ne_zero hcard

theorem keep (h : Held own writer readers φ) (hown : own φ' = own (φ t)) :
    Held own writer readers (Function.update φ t φ') := by
  have hsame : ∀ u, own (Function.update φ t φ' u) = own (φ u) := by
    intro u
    by_cases hu : u = t
    · rw [hu, Function.update_self, hown]
    · rw [Function.update_of_ne hu]
  have howners : owners own (Function.update φ t φ') .shared = owners own φ .shared := by
    ext u
    simp only [owners, Set.mem_ofPred_eq, hsame]
  constructor
  · simpa only [hsame] using h.writer_iff
  · simpa only [hsame] using h.unique
  · rw [howners]
    exact h.finite
  · rw [howners]
    exact h.readers_eq
  · simpa only [hsame] using h.apart

theorem lock (h : Held own false 0 φ) (hown : own φ' = .exclusive) :
    Held own true 0 (Function.update φ t φ') := by
  have hself : own (Function.update φ t φ' t) = .exclusive := by
    rw [Function.update_self, hown]
  have hother : ∀ u, own (Function.update φ t φ' u) = .exclusive → u = t := by
    intro u hu
    by_contra hut
    rw [Function.update_of_ne hut] at hu
    exact h.not_exclusive u hu
  have hempty : owners own (Function.update φ t φ') .shared = ∅ := by
    rw [owners_update_of_ne (by rw [hown]; exact Ownership.noConfusion),
      (Set.ncard_eq_zero h.finite).mp h.readers_eq, Set.empty_sdiff]
  constructor
  · exact iff_of_true rfl ⟨t, hself⟩
  · exact fun u v hu hv => (hother u hu).trans (hother v hv).symm
  · rw [hempty]
    exact Set.finite_empty
  · rw [hempty, Set.ncard_empty]
  · exact fun u v _ => Set.eq_empty_iff_forall_notMem.mp hempty v

theorem lock_of_enabled (h : Held own writer readers φ)
    (henabled : (!writer && readers == 0) = true) (hown : own φ' = .exclusive) :
    Held own true readers (Function.update φ t φ') := by
  simp only [Bool.and_eq_true, Bool.not_eq_true', beq_iff_eq] at henabled
  obtain ⟨rfl, rfl⟩ := henabled
  exact h.lock hown

theorem free_update (hfree : ∀ u, u ≠ t → own (φ u) ≠ .exclusive) (hown : own φ' ≠ .exclusive)
    (u : ℕ) : own (Function.update φ t φ' u) ≠ .exclusive := by
  by_cases hut : u = t
  · rw [hut, Function.update_self]
    exact hown
  · rw [Function.update_of_ne hut]
    exact hfree u hut

theorem unlock (h : Held own writer readers φ) (ht : own (φ t) = .exclusive)
    (hown : own φ' = .none) : Held own false readers (Function.update φ t φ') := by
  have hshared : owners own (Function.update φ t φ') .shared = owners own φ .shared := by
    rw [owners_update_of_ne (by rw [hown]; exact Ownership.noConfusion)]
    exact Set.sdiff_singleton_eq_self (h.apart t t ht)
  refine of_free (free_update (fun u hut hu => hut (h.unique u t hu ht)) ?_) ?_ ?_
  · rw [hown]
    exact Ownership.noConfusion
  · rw [hshared]
    exact h.finite
  · rw [hshared]
    exact h.readers_eq

theorem lockShared (h : Held own false readers φ) (ht : own (φ t) ≠ .shared)
    (hown : own φ' = .shared) : Held own false (readers + 1) (Function.update φ t φ') := by
  have hmem : t ∉ owners own φ .shared := ht
  refine of_free (free_update (fun u _ => h.not_exclusive u) ?_) ?_ ?_
  · rw [hown]
    exact Ownership.noConfusion
  · rw [owners_update_of_eq hown]
    exact h.finite.insert t
  · rw [owners_update_of_eq hown, Set.ncard_insert_of_notMem hmem h.finite, h.readers_eq]

theorem lockShared_of_enabled (h : Held own writer readers φ) (henabled : (!writer) = true)
    (ht : own (φ t) = .none) (hown : own φ' = .shared) :
    Held own writer (readers + 1) (Function.update φ t φ') := by
  obtain rfl : writer = false := by simpa using henabled
  refine h.lockShared ?_ hown
  rw [ht]
  exact Ownership.noConfusion

theorem unlockShared (h : Held own writer readers φ) (ht : own (φ t) = .shared)
    (hown : own φ' = .none) : Held own writer (readers - 1) (Function.update φ t φ') := by
  obtain rfl : writer = false := h.not_writer_of_shared ht
  have hmem : t ∈ owners own φ .shared := ht
  have hshared : owners own (Function.update φ t φ') .shared = owners own φ .shared \ {t} :=
    owners_update_of_ne (by rw [hown]; exact Ownership.noConfusion)
  refine of_free (free_update (fun u _ => h.not_exclusive u) ?_) ?_ ?_
  · rw [hown]
    exact Ownership.noConfusion
  · rw [hshared]
    exact h.finite.sdiff
  · rw [hshared, Set.ncard_sdiff_singleton_of_mem hmem, h.readers_eq]

end Held

section progress
variable {ρ σ Req Op Op' α : Type} {Res : Op → Type} {Res' : Op' → Type}
  {D : Discipline Op Res Op' Res' Stage} {S : System σ Req Op' Res' α}
  {pool : List (Thread Req Op Res α)} {c : Config σ Req Op' Res' α}

/-- Only taking the mutex makes a thread wait. -/
structure WaitsOnlyOutside (D : Discipline Op Res Op' Res' Stage) (S : System σ Req Op' Res' α)
    (own : Stage → Ownership) : Prop where
  possible : ∀ op s, D.possible op (S.exec op s).1
  idle : own D.idle = .none
  inside : ∀ ψ op r φ' x s, own ψ ≠ .none → D.step ψ ⟨op, r⟩ φ' x → S.enabled op s = true

theorem WaitsOnlyOutside.owner_moves (h : WaitsOnlyOutside D S own)
    (hmatches : D.Matches φ pool c.pool) (ht : own (φ t) ≠ .none) :
    ∃ c', S.fire c (.run t) = some c' := by
  have hidle : φ t ≠ D.idle := by
    intro hidle
    rw [hidle] at ht
    exact ht h.idle
  obtain ⟨req, op, next, p, hpool, hm⟩ := hmatches.aboutTo_of_ne_idle hidle
  obtain ⟨φ', x, p', hstep, -⟩ := hm _ (h.possible op c.shared)
  exact ⟨_, System.fire_of_enabled hpool (h.inside _ _ _ _ _ _ ht hstep)⟩

theorem WaitsOnlyOutside.someone_moves (h : WaitsOnlyOutside D S own)
    (hmatches : D.Matches φ pool c.pool) (hheld : Held own writer readers φ)
    (hfree : writer = false → readers = 0 → ∀ op, S.enabled op c.shared = true)
    (hbusy : ¬ c.Quiescent) : ∃ t c', S.fire c (.run t) = some c' := by
  by_cases hwriter : writer = true
  · obtain ⟨t, ht⟩ := hheld.writer_iff.mp hwriter
    exact ⟨t, h.owner_moves hmatches (by rw [ht]; exact Ownership.noConfusion)⟩
  by_cases hreaders : readers = 0
  · obtain ⟨th, hth, hcall⟩ : ∃ th ∈ c.pool, ¬ ∃ a, th.prog = .ret a := by
      simpa [Config.Quiescent] using hbusy
    obtain ⟨t, hpool⟩ := List.mem_iff_getElem?.mp hth
    obtain ⟨req, prog⟩ := th
    cases prog with
    | ret a => exact absurd ⟨a, rfl⟩ hcall
    | call op next =>
      exact ⟨t, _, System.fire_of_enabled hpool
        (hfree (Bool.eq_false_iff.mpr hwriter) hreaders op)⟩
  · obtain ⟨t, ht⟩ := hheld.exists_shared hreaders
    exact ⟨t, h.owner_moves hmatches (by rw [ht]; exact Ownership.noConfusion)⟩

variable {T : System ρ Req Op Res α} {d : Config ρ Req Op Res α}

/-- Where nobody can move, nobody owns the mutex, and the threads wait at operations
that the abstract threads wait at too. -/
theorem WaitsOnlyOutside.stuck (h : WaitsOnlyOutside D S own)
    (hmatches : D.Matches φ d.pool c.pool) (hheld : Held own writer readers φ)
    {same : Op' → Op → Prop}
    (hsame : ∀ ψ op o r ψ' x, same op o → D.step ψ ⟨op, r⟩ ψ' x → ∃ a, x = some ⟨o, a⟩)
    (hfree : writer = false → readers = 0 → ∀ op, S.enabled op c.shared = false →
      ∃ o, same op o ∧ T.enabled o d.shared = false) (hstuck : S.Stuck c) :
    T.Stuck d ∧ StandAlike same c d := by
  have hnobody : ∀ t, own (φ t) = .none := by
    intro t
    by_contra ht
    obtain ⟨c', hc'⟩ := h.owner_moves hmatches ht
    rw [hstuck t] at hc'
    cases hc'
  have hwriter : writer = false := by
    rw [Bool.eq_false_iff]
    intro hwriter
    obtain ⟨t, ht⟩ := hheld.writer_iff.mp hwriter
    rw [hnobody t] at ht
    cases ht
  have hreaders : readers = 0 := by
    by_contra hreaders
    obtain ⟨t, ht⟩ := hheld.exists_shared hreaders
    rw [hnobody t] at ht
    cases ht
  have hwait : ∀ (t : ℕ) (req : Req) (p' : Prog Op' Res' α), c.pool[t]? = some ⟨req, p'⟩ →
      ∃ p, d.pool[t]? = some ⟨req, p⟩ ∧ p'.Alike same p ∧ T.fire d (.run t) = none := by
    intro t req p' hpool
    obtain ⟨p, hp, hm⟩ := hmatches.mirrors t req _ hpool
    refine ⟨p, hp, ?_⟩
    cases p' with
    | ret a =>
      obtain ⟨-, rfl⟩ := hm
      exact ⟨.ret a, by simp only [System.fire, hp]⟩
    | call op next =>
      have hblocked : S.enabled op c.shared = false := by
        rw [Bool.eq_false_iff]
        intro henabled
        have hfire := System.fire_of_enabled hpool henabled
        rw [hstuck t] at hfire
        cases hfire
      obtain ⟨o, ho, hdisabled⟩ := hfree hwriter hreaders op hblocked
      obtain ⟨ψ', x, p', hstep, hpath, -⟩ := hm _ (h.possible op c.shared)
      obtain ⟨a, rfl⟩ := hsame _ _ _ _ _ _ ho hstep
      obtain ⟨onext, rfl, -⟩ := Path.cons_iff.mp hpath
      exact ⟨.call ho, by simp [System.fire, hp, hdisabled]⟩
  refine ⟨fun t => ?_, hmatches.length_eq.symm, fun t req p' hpool => ?_⟩
  · by_cases hlt : t < c.pool.length
    · obtain ⟨⟨req, p'⟩, hpool⟩ : ∃ th, c.pool[t]? = some th := ⟨_, List.getElem?_eq_getElem hlt⟩
      obtain ⟨p, -, -, hfire⟩ := hwait t req p' hpool
      exact hfire
    · have hnone : d.pool[t]? = none := by
        rw [List.getElem?_eq_none_iff, hmatches.length_eq]
        exact not_lt.mp hlt
      simp only [System.fire, hnone]
  · obtain ⟨p, hp, halike, -⟩ := hwait t req p' hpool
    exact ⟨p, hp, halike⟩

end progress
end Interleaving
