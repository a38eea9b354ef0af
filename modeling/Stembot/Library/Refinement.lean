import Stembot.Library.Trace

/-!
# Refinement

What a service may do is a relation: a call, the state before, the answer and the
state after. A device refines the service if each of its answers is one that the
service may give; a client of the device is then a client of the service.
-/

namespace Library

namespace Program

variable {Op : Type} {Res : Op → Type} {α σ τ : Type}

/-- What a service may answer to a call, and what becomes of it. -/
abbrev Service (Op : Type) (Res : Op → Type) (τ : Type) := (op : Op) → τ → Res op → τ → Prop

/-- A run of the program as a client of the service. -/
inductive Served (service : Service Op Res τ) : Program Op Res α → τ → α → τ → Prop
  | done (a : α) (t : τ) : Served service (.done a) t a t
  | call {op : Op} {next : Res op → Program Op Res α} {t t' t'' : τ} {r : Res op} {a : α} :
      service op t r t' → Served service (next r) t' a t'' → Served service (.call op next) t a t''

/-- Whatever the device answers, the service may. -/
def Refines (h : Handler Op Res σ) (R : σ → τ → Prop) (service : Service Op Res τ) : Prop :=
  ∀ op s t, R s t → ∃ t', service op t (h op s).1 t' ∧ R (h op s).2 t'

section Service

variable {h : Handler Op Res σ} {R : σ → τ → Prop} {service : Service Op Res τ} {t t' : τ}

theorem Refines.run (refines : Refines h R service) (p : Program Op Res α)
    {s : σ} (related : R s t) :
    ∃ t', p.Served service t (p.run h s).1 t' ∧ R (p.run h s).2 t' := by
  induction p generalizing s t with
  | done a => exact ⟨t, .done a t, related⟩
  | call op next ih =>
    obtain ⟨t', step, related'⟩ := refines op s t related
    obtain ⟨t'', served, related''⟩ := ih _ related'
    exact ⟨t'', .call step served, related''⟩

/-- What the service keeps on the calls a client makes, the client keeps. -/
theorem Served.keeps {P : Op → Prop} {I : τ → Prop}
    (kept : ∀ op t r t', P op → service op t r t' → I t → I t') {p : Program Op Res α}
    (issues : p.Issues P) {a : α} (served : p.Served service t a t') (inv : I t) : I t' := by
  induction served with
  | done a t => exact inv
  | call step _ ih => exact ih (issues.2 _) (kept _ _ _ _ issues.1 step inv)

end Service

end Program

end Library
