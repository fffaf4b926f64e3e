import PokemonServer.Interleaving.Path
import PokemonServer.Interleaving.Protocol

/-!
# Postconditions of programs that follow a protocol

`EndsIn Q φ p` says that the program `p`, started in phase `φ`, keeps to the protocol
and returns in a phase that `Q` allows for its result. Programs are then composed by
their postconditions, and a completed part of a thread's history leads to such a phase.
-/

namespace Interleaving
namespace Protocol

variable {Req Op Op' : Type} {Res : Op → Type} {Res' : Op' → Type} {Phase α β : Type}

def EndsIn (P : Protocol Req Op Res Phase) (possible : (op : Op) → Res op → Prop) (req : Req)
    (Q : α → Phase → Prop) : Phase → Prog Op Res α → Prop
  | φ, .ret a => Q a φ
  | φ, .call op next => ∀ r, possible op r →
      ∃ φ', P.next req φ op r = some φ' ∧ P.EndsIn possible req Q φ' (next r)

/-- The phase after some exchanges, none if the protocol does not allow them. -/
def along (P : Protocol Req Op Res Phase) (req : Req) :
    Phase → List (Exchange Op Res) → Option Phase
  | φ, [] => some φ
  | φ, x :: xs => (P.next req φ x.op x.res).bind fun φ' => P.along req φ' xs

variable {P : Protocol Req Op Res Phase} {possible : (op : Op) → Res op → Prop} {req : Req}
  {φ : Phase} {Q : α → Phase → Prop}

theorem along_append (es fs : List (Exchange Op Res)) :
    P.along req φ (es ++ fs) = (P.along req φ es).bind fun ψ => P.along req ψ fs := by
  induction es generalizing φ with
  | nil => rfl
  | cons x es ih =>
    rw [List.cons_append, along, along]
    cases P.next req φ x.op x.res with
    | none => rfl
    | some φ' => exact ih

theorem phase_eq_along (t : ℕ) (log : List (Event Op Res)) :
    P.phase req t log = P.along req (P.start req) (history t log) := by
  induction log with
  | nil => rfl
  | cons e es ih =>
    rw [phase, history]
    by_cases ht : e.tid = t
    · rw [if_pos ht, if_pos ht, along_append, ih]
      congr 1
      funext φ
      rw [along]
      exact (Option.bind_fun_some _).symm
    · rw [if_neg ht, if_neg ht, ih]

namespace EndsIn

theorem mono {Q' : α → Phase → Prop} (himp : ∀ a ψ, Q a ψ → Q' a ψ) {p : Prog Op Res α}
    (hp : P.EndsIn possible req Q φ p) : P.EndsIn possible req Q' φ p := by
  induction p generalizing φ with
  | ret a => exact himp a φ hp
  | call op next ih =>
    intro r hr
    obtain ⟨φ', hnext, hrest⟩ := hp r hr
    exact ⟨φ', hnext, ih r hrest⟩

theorem bind {Q' : β → Phase → Prop} {p : Prog Op Res α} {f : α → Prog Op Res β}
    (hp : P.EndsIn possible req Q φ p)
    (hf : ∀ a ψ, Q a ψ → P.EndsIn possible req Q' ψ (f a)) :
    P.EndsIn possible req Q' φ (p >>= f) := by
  induction p generalizing φ with
  | ret a => exact hf a φ hp
  | call op next ih =>
    intro r hr
    obtain ⟨φ', hnext, hrest⟩ := hp r hr
    exact ⟨φ', hnext, ih r hrest⟩

theorem follows {p : Prog Op Res α} (hp : P.EndsIn possible req Q φ p)
    (hfinal : ∀ a ψ, Q a ψ → P.final ψ) : P.Follows possible req φ p := by
  induction p generalizing φ with
  | ret a => exact hfinal a φ hp
  | call op next ih =>
    intro r hr
    obtain ⟨φ', hnext, hrest⟩ := hp r hr
    exact ⟨φ', hnext, ih r hrest⟩

theorem expand {G : Op' → Prop} {I : Phase → Prop} {f : (o : Op') → Prog Op Res (Res' o)}
    (hf : ∀ o, G o → ∀ φ, I φ → P.EndsIn possible req (fun _ => I) φ (f o))
    {p : Prog Op' Res' α} (hp : p.Issues G) (hφ : I φ) :
    P.EndsIn possible req (fun _ => I) φ (p.expand f) := by
  induction p generalizing φ with
  | ret a => exact hφ
  | call o next ih => exact (hf o hp.1 φ hφ).bind fun r ψ hψ => ih r (hp.2 r) hψ

theorem along {p : Prog Op Res α} (hp : P.EndsIn possible req Q φ p)
    {es : List (Exchange Op Res)} {a : α} (h : Path p es (.ret a))
    (hes : ∀ x ∈ es, possible x.op x.res) : ∃ ψ, P.along req φ es = some ψ ∧ Q a ψ := by
  induction p generalizing φ es with
  | ret b =>
    obtain ⟨rfl, heq⟩ := Path.ret_iff.mp h
    cases heq
    exact ⟨φ, rfl, hp⟩
  | call o next ih =>
    obtain ⟨r, fs, rfl, hrest⟩ := Path.call_ret_iff.mp h
    obtain ⟨φ', hnext, hends⟩ := hp r (hes _ List.mem_cons_self)
    obtain ⟨ψ, hψ, hQ⟩ := ih r hends hrest fun x hx => hes x (List.mem_cons_of_mem _ hx)
    refine ⟨ψ, ?_, hQ⟩
    rw [Protocol.along]
    exact (congrArg (Option.bind · _) hnext).trans hψ

end EndsIn
end Protocol
end Interleaving
