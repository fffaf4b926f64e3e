import Mathlib

/-!
# Programs as trees of atomic operations

A program issues one operation at a time and continues with its result. The
same program has a sequential meaning (`Prog.run`, every operation executed in
turn on one state) and, in `Interleaving.System`, a concurrent one. Nothing is
said about the operations themselves: `Op` names them, `Res` types their results.
-/

namespace Interleaving

inductive Prog (Op : Type) (Res : Op → Type) (α : Type) where
  | ret (a : α)
  | call (op : Op) (next : Res op → Prog Op Res α)

namespace Prog
variable {Op Op' : Type} {Res : Op → Type} {Res' : Op' → Type} {α β σ : Type}

def bind : Prog Op Res α → (α → Prog Op Res β) → Prog Op Res β
  | .ret a, f => f a
  | .call op next, f => .call op fun r => (next r).bind f

def op (o : Op) : Prog Op Res (Res o) := .call o .ret

instance : Monad (Prog Op Res) where
  pure := .ret
  bind := .bind

@[simp] theorem pure_eq_ret (a : α) : (pure a : Prog Op Res α) = .ret a := rfl

@[simp] theorem ret_bind (a : α) (f : α → Prog Op Res β) :
    ((.ret a : Prog Op Res α) >>= f) = f a := rfl

@[simp] theorem call_bind (o : Op) (next : Res o → Prog Op Res α) (f : α → Prog Op Res β) :
    (Prog.call o next >>= f) = .call o fun r => next r >>= f := rfl

@[simp] theorem op_bind (o : Op) (f : Res o → Prog Op Res β) :
    ((Prog.op o : Prog Op Res (Res o)) >>= f) = .call o f := rfl

theorem bind_assoc {γ : Type} (p : Prog Op Res α) (f : α → Prog Op Res β)
    (g : β → Prog Op Res γ) : (p >>= f) >>= g = p >>= fun a => f a >>= g := by
  induction p with
  | ret a => rfl
  | call o next ih => exact congrArg (Prog.call o) (funext fun r => ih r)

/-- Replaces every operation by a program over another signature. -/
def expand (f : (o : Op) → Prog Op' Res' (Res o)) : Prog Op Res α → Prog Op' Res' α
  | .ret a => .ret a
  | .call o next => (f o).bind fun r => (next r).expand f

@[simp] theorem expand_ret (f : (o : Op) → Prog Op' Res' (Res o)) (a : α) :
    (Prog.ret a : Prog Op Res α).expand f = .ret a := rfl

@[simp] theorem expand_call (f : (o : Op) → Prog Op' Res' (Res o)) (o : Op)
    (next : Res o → Prog Op Res α) :
    (Prog.call o next).expand f = (f o >>= fun r => (next r).expand f) := rfl

theorem expand_bind (f : (o : Op) → Prog Op' Res' (Res o)) (p : Prog Op Res α)
    (g : α → Prog Op Res β) : (p >>= g).expand f = p.expand f >>= fun a => (g a).expand f := by
  induction p with
  | ret a => rfl
  | call o next ih =>
    rw [call_bind, expand_call, expand_call, bind_assoc]
    congr 1
    funext r
    exact ih r

theorem expand_op (p : Prog Op Res α) : p.expand (fun o => .op o) = p := by
  induction p with
  | ret a => rfl
  | call o next ih => exact congrArg (Prog.call o) (funext ih)

def run (exec : (o : Op) → σ → Res o × σ) : Prog Op Res α → σ → α × σ
  | .ret a, s => (a, s)
  | .call o next, s => (next (exec o s).1).run exec (exec o s).2

@[simp] theorem run_ret (exec : (o : Op) → σ → Res o × σ) (a : α) (s : σ) :
    (Prog.ret a : Prog Op Res α).run exec s = (a, s) := rfl

@[simp] theorem run_call (exec : (o : Op) → σ → Res o × σ) (o : Op)
    (next : Res o → Prog Op Res α) (s : σ) :
    (Prog.call o next).run exec s = (next (exec o s).1).run exec (exec o s).2 := rfl

@[simp] theorem run_bind (exec : (o : Op) → σ → Res o × σ) (p : Prog Op Res α)
    (f : α → Prog Op Res β) (s : σ) :
    (p >>= f).run exec s = (f (p.run exec s).1).run exec (p.run exec s).2 := by
  induction p generalizing s with
  | ret a => rfl
  | call o next ih => exact ih _ _

def observing {γ : Type} (exec : (o : Op) → σ → Res o × σ) (observe : (o : Op) → Res o → γ → γ)
    (o : Op) (s : σ × γ) : Res o × (σ × γ) :=
  ((exec o s.1).1, ((exec o s.1).2, observe o (exec o s.1).1 s.2))

theorem run_observing {γ : Type} (exec : (o : Op) → σ → Res o × σ)
    (observe : (o : Op) → Res o → γ → γ) (p : Prog Op Res α) (s : σ × γ) :
    (p.run (observing exec observe) s).1 = (p.run exec s.1).1 ∧
      (p.run (observing exec observe) s).2.1 = (p.run exec s.1).2 := by
  induction p generalizing s with
  | ret a => exact ⟨rfl, rfl⟩
  | call o next ih => exact ih _ _

/-- Every operation the program can come to execute satisfies `P`. -/
def Issues (P : Op → Prop) : Prog Op Res α → Prop
  | .ret _ => True
  | .call o next => P o ∧ ∀ r, (next r).Issues P

theorem Issues.bind {P : Op → Prop} {p : Prog Op Res α} {f : α → Prog Op Res β}
    (hp : p.Issues P) (hf : ∀ a, (f a).Issues P) : (p >>= f).Issues P := by
  induction p with
  | ret a => exact hf a
  | call o next ih => exact ⟨hp.1, fun r => ih r (hp.2 r)⟩

theorem Issues.mono {P Q : Op → Prop} (himp : ∀ o, P o → Q o) {p : Prog Op Res α}
    (hp : p.Issues P) : p.Issues Q := by
  induction p with
  | ret a => trivial
  | call o next ih => exact ⟨himp o hp.1, fun r => ih r (hp.2 r)⟩

theorem Issues.expand {P : Op → Prop} {Q : Op' → Prop} {f : (o : Op) → Prog Op' Res' (Res o)}
    (hf : ∀ o, P o → (f o).Issues Q) {p : Prog Op Res α} (hp : p.Issues P) :
    (p.expand f).Issues Q := by
  induction p with
  | ret a => trivial
  | call o next ih => exact (hf o hp.1).bind fun r => ih r (hp.2 r)

theorem Issues.expand_all {Q : Op' → Prop} {f : (o : Op) → Prog Op' Res' (Res o)}
    (hf : ∀ o, (f o).Issues Q) (p : Prog Op Res α) : (p.expand f).Issues Q := by
  induction p with
  | ret a => trivial
  | call o next ih => exact (hf o).bind ih

/-- `Issues P` when the results are known to be possible ones. -/
def IssuesGiven (possible : (o : Op) → Res o → Prop) (P : Op → Prop) : Prog Op Res α → Prop
  | .ret _ => True
  | .call o next => P o ∧ ∀ r, possible o r → (next r).IssuesGiven possible P

theorem IssuesGiven.bind {possible : (o : Op) → Res o → Prop} {P : Op → Prop} {p : Prog Op Res α}
    {f : α → Prog Op Res β} (hp : p.IssuesGiven possible P)
    (hf : ∀ a, (f a).IssuesGiven possible P) : (p >>= f).IssuesGiven possible P := by
  induction p with
  | ret a => exact hf a
  | call o next ih => exact ⟨hp.1, fun r hr => ih r (hp.2 r hr)⟩

theorem IssuesGiven.expand {possible : (o : Op) → Res o → Prop}
    {possible' : (o : Op') → Res' o → Prop} {P : Op → Prop} {Q : Op' → Prop}
    {f : (o : Op) → Prog Op' Res' (Res o)}
    (hf : ∀ o, P o → ∀ q : Res o → Prog Op' Res' α,
      (∀ r, possible o r → (q r).IssuesGiven possible' Q) → (f o >>= q).IssuesGiven possible' Q)
    {p : Prog Op Res α} (hp : p.IssuesGiven possible P) :
    (p.expand f).IssuesGiven possible' Q := by
  induction p with
  | ret a => trivial
  | call o next ih => exact hf o hp.1 _ fun r hr => ih r (hp.2 r hr)

theorem Issues.given {P : Op → Prop} {p : Prog Op Res α} (hp : p.Issues P)
    (possible : (o : Op) → Res o → Prop) : p.IssuesGiven possible P := by
  induction p with
  | ret a => trivial
  | call o next ih => exact ⟨hp.1, fun r _ => ih r (hp.2 r)⟩

end Prog
end Interleaving
