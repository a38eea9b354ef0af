import Stembot.Library.Trace

/-!
# Monitors

A monitor follows a trace and says of each call whether it may be issued now. An
object whose state gives away the monitor's state obeys it method by method.
-/

namespace Library

/-- What may be issued, given what is known of the calls before, and what a call adds to that. -/
structure Monitor (Op : Type) (Res : Op → Type) (σ : Type) where
  allows : σ → Op → Prop
  next : σ → Answered Op Res → σ

namespace Monitor

variable {Op : Type} {Res : Op → Type} {σ α β ι : Type} (m : Monitor Op Res σ)

/-- What is known after a trace. -/
def after (s : σ) (es : List (Answered Op Res)) : σ := es.foldl m.next s

/-- Every call of the trace may be issued when it is issued. -/
def Accepts : σ → List (Answered Op Res) → Prop
  | _, [] => True
  | s, e :: es => m.allows s e.1 ∧ Accepts (m.next s e) es

variable {m} {s : σ}

@[simp] theorem after_append (es es' : List (Answered Op Res)) :
    m.after s (es ++ es') = m.after (m.after s es) es' := List.foldl_append

theorem accepts_append {es es' : List (Answered Op Res)} :
    m.Accepts s (es ++ es') ↔ m.Accepts s es ∧ m.Accepts (m.after s es) es' := by
  induction es generalizing s with
  | nil => exact ⟨fun accepted => ⟨trivial, accepted⟩, And.right⟩
  | cons e es ih =>
    rw [List.cons_append, Accepts, Accepts, ih, and_assoc]
    rfl

theorem Accepts.allowed {es before after : List (Answered Op Res)} {e : Answered Op Res}
    (h : m.Accepts s es) (split : es = before ++ e :: after) : m.allows (m.after s before) e.1 := by
  rw [split, accepts_append] at h
  exact h.2.1

/-- What every allowed call keeps holds after every part of an accepted trace. -/
theorem Accepts.after {I : σ → Prop} (kept : ∀ s e, m.allows s e.1 → I s → I (m.next s e))
    {es : List (Answered Op Res)} (h : m.Accepts s es) (inv : I s) : I (m.after s es) := by
  induction es generalizing s with
  | nil => exact inv
  | cons e es ih => exact ih h.2 (kept s e h.1 inv)

/-- What the monitor counts as held is what was gained and has not been lost. -/
theorem Accepts.balance {held : σ → Nat} {gains losses : Answered Op Res → Bool}
    (step : ∀ s e, m.allows s e.1 → held s + (gains e).toNat = held (m.next s e) + (losses e).toNat)
    {es : List (Answered Op Res)} (h : m.Accepts s es) :
    held s + es.countP gains = held (m.after s es) + es.countP losses := by
  induction es generalizing s with
  | nil => rfl
  | cons e es ih =>
    have first := step s e h.1
    have rest := ih h.2
    change _ = held (m.after (m.next s e) es) + _
    rw [List.countP_cons, List.countP_cons]
    cases gained : gains e <;> cases lost : losses e <;>
      simp only [gained, lost, Bool.toNat_true, Bool.toNat_false, Bool.false_eq_true, if_true,
        if_false] at first ⊢ <;>
      omega

/-- Of the entries with the key that is erased there is one less. -/
theorem countP_eraseP {κ : Type} [DecidableEq κ] {entries : List (κ × β)} {key : κ}
    (there : (entries.lookup key).isSome) (key' : κ) :
    entries.countP (fun entry => entry.1 = key') =
      (entries.eraseP fun entry => entry.1 = key).countP (fun entry => entry.1 = key') +
        (decide (key = key')).toNat := by
  induction entries with
  | nil => simp at there
  | cons entry entries ih =>
    by_cases same : entry.1 = key
    · subst same
      by_cases named : entry.1 = key' <;> simp [named]
    · have later : (entries.lookup key).isSome := by
        rwa [List.lookup_cons, beq_false_of_ne (Ne.symm same)] at there
      rw [List.eraseP_cons_of_neg (by simpa using same), List.countP_cons,
        List.countP_cons, ih later]
      omega

/-- The part of a trace that another monitor looks at. -/
theorem Accepts.project {Op' : Type} {Res' : Op' → Type} {τ : Type}
    {m' : Monitor Op' Res' τ} (view : σ → τ) (part : Answered Op Res → Option (Answered Op' Res'))
    (seen : ∀ s e e', m.allows s e.1 → part e = some e' →
      m'.allows (view s) e'.1 ∧ view (m.next s e) = m'.next (view s) e')
    (unseen : ∀ s e, m.allows s e.1 → part e = none → view (m.next s e) = view s)
    {es : List (Answered Op Res)} (h : m.Accepts s es) :
    m'.Accepts (view s) (es.filterMap part) ∧
      view (m.after s es) = m'.after (view s) (es.filterMap part) := by
  induction es generalizing s with
  | nil => exact ⟨trivial, rfl⟩
  | cons e es ih =>
    obtain ⟨accepted, known⟩ := ih h.2
    cases shown : part e with
    | none =>
      rw [unseen s e h.1 shown] at accepted known
      rw [List.filterMap_cons_none shown]
      exact ⟨accepted, known⟩
    | some e' =>
      obtain ⟨allowed, step⟩ := seen s e e' h.1 shown
      rw [step] at accepted known
      rw [List.filterMap_cons_some shown]
      exact ⟨⟨allowed, accepted⟩, known⟩

/-- However the program's calls are answered, the monitor accepts them, and the value tells what it
then knows. -/
def Obeys (m : Monitor Op Res σ) (s : σ) (p : Program Op Res α) (s' : α → σ) : Prop :=
  ∀ es a, p.Traces es a → m.Accepts s es ∧ m.after s es = s' a

section Obeys

open Program

variable {s' : α → σ}

theorem Obeys.pure {a : α} (same : s = s' a) : m.Obeys s (pure a : Program Op Res α) s' := by
  intro es b traced
  obtain ⟨rfl, rfl⟩ := traces_pure.mp traced
  exact ⟨trivial, same⟩

theorem Obeys.issue {op : Op} {s' : Res op → σ} (allowed : m.allows s op)
    (next : ∀ r, m.next s ⟨op, r⟩ = s' r) : m.Obeys s (issue op) s' := by
  intro es r traced
  obtain rfl := traces_issue.mp traced
  exact ⟨⟨allowed, trivial⟩, next r⟩

theorem Obeys.bind {p : Program Op Res α} {k : α → Program Op Res β} {s'' : β → σ}
    (first : m.Obeys s p s') (rest : ∀ a, m.Obeys (s' a) (k a) s'') : m.Obeys s (p >>= k) s'' := by
  intro es b traced
  obtain ⟨a, es₁, es₂, traced₁, traced₂, rfl⟩ := traces_bind.mp traced
  obtain ⟨accepted₁, known₁⟩ := first es₁ a traced₁
  obtain ⟨accepted₂, known₂⟩ := rest a es₂ b traced₂
  rw [accepts_append, after_append, known₁]
  exact ⟨⟨accepted₁, accepted₂⟩, known₂⟩

/-- Calls that are always allowed and teach the monitor nothing. -/
theorem Obeys.of_issues {P : Op → Prop} {p : Program Op Res α} (issues : p.Issues P)
    (allowed : ∀ op, P op → m.allows s op) (known : ∀ op r, P op → m.next s ⟨op, r⟩ = s) :
    m.Obeys s p fun _ => s := by
  intro es a traced
  induction traced with
  | done a => exact ⟨trivial, rfl⟩
  | @call op _ r es _ _ ih =>
    obtain ⟨accepted, same⟩ := ih (issues.2 r)
    have unchanged := known op r issues.1
    refine ⟨⟨allowed op issues.1, ?_⟩, ?_⟩
    · rw [unchanged]
      exact accepted
    · change m.after (m.next s ⟨op, r⟩) es = s
      rw [unchanged, same]

/-- Methods that obey the monitor, called one after the other. -/
theorem Obeys.foldlM {f : α → ι → Program Op Res α} {view : α → σ}
    (method : ∀ a i, m.Obeys (view a) (f a i) view) (is : List ι) (a : α) :
    m.Obeys (view a) (is.foldlM f a) view := by
  induction is generalizing a with
  | nil => exact .pure rfl
  | cons i is ih =>
    rw [List.foldlM_cons]
    exact (method a i).bind ih

end Obeys

/-- However the program's calls are answered, the monitor accepts them, and what it then knows is as
`Q` says for the value. -/
def Leads (m : Monitor Op Res σ) (s : σ) (p : Program Op Res α) (Q : α → σ → Prop) : Prop :=
  ∀ es a, p.Traces es a → m.Accepts s es ∧ Q a (m.after s es)

section Leads

open Program

variable {Q : α → σ → Prop}

theorem Obeys.leads {p : Program Op Res α} {s' : α → σ} (obeys : m.Obeys s p s')
    (holds : ∀ a, Q a (s' a)) :
    m.Leads s p Q := by
  intro es a traced
  obtain ⟨accepted, known⟩ := obeys es a traced
  exact ⟨accepted, by rw [known]; exact holds a⟩

theorem Leads.pure {a : α} (holds : Q a s) : m.Leads s (pure a : Program Op Res α) Q := by
  intro es b traced
  obtain ⟨rfl, rfl⟩ := traces_pure.mp traced
  exact ⟨trivial, holds⟩

theorem Leads.bind {p : Program Op Res α} {k : α → Program Op Res β} {Q' : β → σ → Prop}
    (first : m.Leads s p Q) (rest : ∀ a s', Q a s' → m.Leads s' (k a) Q') :
    m.Leads s (p >>= k) Q' := by
  intro es b traced
  obtain ⟨a, es₁, es₂, traced₁, traced₂, rfl⟩ := traces_bind.mp traced
  obtain ⟨accepted₁, holds⟩ := first es₁ a traced₁
  obtain ⟨accepted₂, holds'⟩ := rest a _ holds es₂ b traced₂
  rw [accepts_append, after_append]
  exact ⟨⟨accepted₁, accepted₂⟩, holds'⟩

end Leads

end Monitor

end Library
