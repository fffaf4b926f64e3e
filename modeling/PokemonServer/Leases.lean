import Mathlib

/-!
# Values that are held for a time

The history of one key, newest event first. A grant gives the key a value for a
duration, a revocation takes it away, and time passes. What the key holds is computed
along the history; it is the value of the last grant, if that grant has not been revoked
and less time than its duration has passed since.
-/

namespace Leases

inductive LeaseEvent (β : Type) where
  | grant (value : β) (duration : ℕ+)
  | revoke
  | pass (duration : ℕ)
  | other

variable {β : Type} {es later : List (LeaseEvent β)} {value : β} {left : ℕ}

/-- The value that is held, and for how much longer. -/
def holds : List (LeaseEvent β) → Option (β × ℕ)
  | [] => none
  | .grant value duration :: _ => some (value, duration)
  | .revoke :: _ => none
  | .pass duration :: es =>
    (holds es).bind fun x => if duration < x.2 then some (x.1, x.2 - duration) else none
  | .other :: es => holds es

def passed : List (LeaseEvent β) → ℕ
  | [] => 0
  | .pass duration :: es => passed es + duration
  | _ :: es => passed es

def LeaseEvent.Keeps : LeaseEvent β → Prop
  | .grant _ _ | .revoke => False
  | .pass _ | .other => True

theorem holds_append (hlater : ∀ e ∈ later, e.Keeps) (value : β) (duration : ℕ+)
    (earlier : List (LeaseEvent β)) :
    holds (later ++ .grant value duration :: earlier) =
      if passed later < duration then some (value, duration - passed later) else none := by
  induction later with
  | nil => simp [holds, passed]
  | cons e later ih =>
    have hrest := ih fun e' he' => hlater e' (List.mem_cons_of_mem _ he')
    have hkeeps := hlater e List.mem_cons_self
    cases e with
    | grant _ _ | revoke => cases hkeeps
    | other => exact hrest
    | pass n =>
      rw [List.cons_append, holds, hrest, passed]
      by_cases hlt : passed later < duration
      · rw [if_pos hlt, Option.bind_some]
        by_cases hn : n < duration - passed later
        · rw [if_pos hn, if_pos (by omega), Nat.sub_sub]
        · rw [if_neg hn, if_neg (by omega)]
      · rw [if_neg hlt, Option.bind_none, if_neg (by omega)]

theorem exists_grant (h : holds es = some (value, left)) :
    ∃ later duration earlier, es = later ++ .grant value duration :: earlier ∧
      ∀ e ∈ later, e.Keeps := by
  induction es generalizing left with
  | nil => cases h
  | cons e es ih =>
    cases e with
    | grant value' duration =>
      cases h
      exact ⟨[], duration, es, rfl, fun e he => by cases he⟩
    | revoke => cases h
    | pass n =>
      obtain ⟨⟨value', left'⟩, hes, hleft⟩ := Option.bind_eq_some_iff.mp h
      split at hleft
      · cases hleft
        obtain ⟨later, duration, earlier, rfl, hlater⟩ := ih hes
        exact ⟨.pass n :: later, duration, earlier, rfl,
          List.forall_mem_cons.mpr ⟨trivial, hlater⟩⟩
      · cases hleft
    | other =>
      obtain ⟨later, duration, earlier, rfl, hlater⟩ := ih h
      exact ⟨.other :: later, duration, earlier, rfl, List.forall_mem_cons.mpr ⟨trivial, hlater⟩⟩

theorem holds_iff :
    (∃ left, holds es = some (value, left)) ↔ ∃ (later : List (LeaseEvent β)) (duration : ℕ+)
      (earlier : List (LeaseEvent β)), es = later ++ .grant value duration :: earlier ∧
        (∀ e ∈ later, e.Keeps) ∧ passed later < duration := by
  constructor
  · rintro ⟨left, h⟩
    obtain ⟨later, duration, earlier, rfl, hlater⟩ := exists_grant h
    refine ⟨later, duration, earlier, rfl, hlater, ?_⟩
    by_contra hge
    rw [holds_append hlater, if_neg hge] at h
    cases h
  · rintro ⟨later, duration, earlier, rfl, hlater, hlt⟩
    exact ⟨_, (holds_append hlater value duration earlier).trans (if_pos hlt)⟩

end Leases
