import Mathlib.Tactic.Common

/-!
# Programs over a fallible interface

A program is a tree of calls; what a call answers is chosen by a handler that
carries the state of the device. The tree is the code, so the same program can
be run alone or step by step beside another one.
-/

namespace Library

/-- A program that issues calls `Op`, each answered by a value of `Res op`. -/
inductive Program (Op : Type) (Res : Op → Type) (α : Type) where
  | done (a : α)
  | call (op : Op) (next : Res op → Program Op Res α)

namespace Program

variable {Op : Type} {Res : Op → Type} {α β σ : Type}

def bind : Program Op Res α → (α → Program Op Res β) → Program Op Res β
  | .done a, k => k a
  | .call op next, k => .call op fun r => (next r).bind k

instance : Monad (Program Op Res) where
  pure := .done
  bind := .bind

/-- One call whose answer is returned. -/
def issue (op : Op) : Program Op Res (Res op) := .call op .done

/-- How the device answers a call and what becomes of it. -/
abbrev Handler (Op : Type) (Res : Op → Type) (σ : Type) := (op : Op) → σ → Res op × σ

def run (h : Handler Op Res σ) : Program Op Res α → σ → α × σ
  | .done a, s => (a, s)
  | .call op next, s => (next (h op s).1).run h (h op s).2

@[simp] theorem run_pure (h : Handler Op Res σ) (a : α) (s : σ) :
    (pure a : Program Op Res α).run h s = (a, s) := rfl

@[simp] theorem run_issue (h : Handler Op Res σ) (op : Op) (s : σ) :
    (issue op : Program Op Res (Res op)).run h s = h op s := rfl

@[simp] theorem run_bind (h : Handler Op Res σ) (p : Program Op Res α)
    (k : α → Program Op Res β) (s : σ) :
    (p >>= k).run h s = (k (p.run h s).1).run h (p.run h s).2 := by
  change (p.bind k).run h s = _
  induction p generalizing s with
  | done a => rfl
  | call op next ih => exact ih _ _

/-- A call whose answer is known, and what follows it. -/
theorem run_issue_bind {h : Handler Op Res σ} {op : Op} {r : Res op} {s s' : σ}
    (answered : h op s = (r, s')) (k : Res op → Program Op Res α) :
    (issue op >>= k).run h s = (k r).run h s' := by
  rw [run_bind, run_issue, answered]

/-- What every answer keeps is kept by the run. -/
theorem run_keeps {I : σ → Prop} {h : Handler Op Res σ} (kept : ∀ op s, I s → I (h op s).2)
    (p : Program Op Res α) {s : σ} (inv : I s) : I (p.run h s).2 := by
  induction p generalizing s with
  | done a => exact inv
  | call op next ih => exact ih _ (kept op s inv)

theorem bind_done (p : Program Op Res α) : p.bind .done = p := by
  induction p with
  | done a => rfl
  | call op next ih => exact congrArg (call op) (funext ih)

theorem bind_bind {γ : Type} (p : Program Op Res α) (k : α → Program Op Res β)
    (l : β → Program Op Res γ) :
    (p.bind k).bind l = p.bind fun a => (k a).bind l := by
  induction p with
  | done a => rfl
  | call op next ih => exact congrArg (call op) (funext ih)

instance : LawfulMonad (Program Op Res) :=
  LawfulMonad.mk' (Program Op Res) bind_done (fun _ _ => rfl) bind_bind

@[simp] theorem run_map (h : Handler Op Res σ) (f : α → β) (p : Program Op Res α) (s : σ) :
    (f <$> p).run h s = (f (p.run h s).1, (p.run h s).2) :=
  run_bind h p (fun a => pure (f a)) s

/-- From every state in `I`, the program ends in `I`, and its value and the entries it has
appended to the log satisfy `Q`. -/
def Emits {ε : Type} (h : Handler Op Res σ) (log : σ → List ε) (I : σ → Prop) (p : Program Op Res α)
    (Q : α → List ε → Prop) : Prop :=
  ∀ s, I s → I (p.run h s).2 ∧ ∃ es, log (p.run h s).2 = log s ++ es ∧ Q (p.run h s).1 es

section Emits

variable {ε : Type} {h : Handler Op Res σ} {log : σ → List ε} {I : σ → Prop} {Q : α → List ε → Prop}

theorem Emits.pure {a : α} (holds : Q a []) : Emits h log I (pure a : Program Op Res α) Q :=
  fun s inv => ⟨inv, [], by simp, holds⟩

theorem Emits.bind {p : Program Op Res α} {k : α → Program Op Res β} {Q' : β → List ε → Prop}
    (first : Emits h log I p Q)
    (rest : ∀ a es, Q a es → Emits h log I (k a) fun b es' => Q' b (es ++ es')) :
    Emits h log I (p >>= k) Q' := by
  intro s inv
  obtain ⟨inv₁, es, log₁, holds₁⟩ := first s inv
  obtain ⟨inv₂, es', log₂, holds₂⟩ := rest _ es holds₁ _ inv₁
  rw [run_bind]
  refine ⟨inv₂, es ++ es', ?_, holds₂⟩
  rw [log₂, log₁, List.append_assoc]

theorem Emits.mono {p : Program Op Res α} {Q' : α → List ε → Prop} (emits : Emits h log I p Q')
    (weaker : ∀ a es, Q' a es → Q a es) : Emits h log I p Q := by
  intro s inv
  obtain ⟨inv', es, logged, holds⟩ := emits s inv
  exact ⟨inv', es, logged, weaker _ _ holds⟩

end Emits

/-- Run from related states, each on its own device, the two programs return related values in
related states. -/
def Agrees (h : Handler Op Res σ) (h' : Handler Op Res σ) (R : σ → σ → Prop) (Q : α → β → Prop)
    (p : Program Op Res α) (q : Program Op Res β) : Prop :=
  ∀ s t, R s t → Q (p.run h s).1 (q.run h' t).1 ∧ R (p.run h s).2 (q.run h' t).2

section Agrees

variable {h h' : Handler Op Res σ} {R : σ → σ → Prop} {γ δ : Type}
  {Q : α → β → Prop} {Q' : γ → δ → Prop}

theorem Agrees.pure {a : α} {b : β} (related : Q a b) :
    Agrees h h' R Q (pure a : Program Op Res α) (pure b) :=
  fun _ _ states => ⟨related, states⟩

theorem Agrees.bind {p : Program Op Res α} {q : Program Op Res β} {k : α → Program Op Res γ}
    {l : β → Program Op Res δ} (first : Agrees h h' R Q p q)
    (rest : ∀ a b, Q a b → Agrees h h' R Q' (k a) (l b)) :
    Agrees h h' R Q' (p >>= k) (q >>= l) := by
  intro s t states
  obtain ⟨values, states'⟩ := first s t states
  rw [run_bind, run_bind]
  exact rest _ _ values _ _ states'

/-- A device agrees with itself. -/
theorem Agrees.rfl (p : Program Op Res α) : Agrees h h (· = ·) (· = ·) p p := by
  rintro s _ ⟨⟩
  exact ⟨Eq.refl _, Eq.refl _⟩

end Agrees

end Program

end Library
