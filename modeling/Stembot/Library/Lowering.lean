import Stembot.Library.Monitor

/-!
# Lowering

A program over one interface becomes a program over another when each of its
calls is carried out there. It behaves like the program above: its traces are the
traces above with every call replaced by what carried it out, and a discipline
that every single call keeps is kept by all of it.
-/

namespace Library

variable {Op Op' : Type} {Res : Op → Type} {Res' : Op' → Type} {α β σ τ : Type}

namespace Program

/-- What carries out the calls of one interface over another. -/
abbrev Implementation (Op : Type) (Res : Op → Type) (Op' : Type) (Res' : Op' → Type) :=
  (op : Op) → Program Op' Res' (Res op)

variable (impl : Implementation Op Res Op' Res')

def lower : Program Op Res α → Program Op' Res' α
  | .done a => .done a
  | .call op next => (impl op).bind fun r => (next r).lower

/-- Carried out on a device, the program runs as on the device that the implementation
makes of it. -/
theorem run_lower (h : Handler Op' Res' σ) (p : Program Op Res α) (s : σ) :
    (p.lower impl).run h s = p.run (fun op s => (impl op).run h s) s := by
  induction p generalizing s with
  | done a => rfl
  | call op next ih => exact (run_bind h (impl op) _ s).trans (ih _ _)

/-- A device that is part of a larger one runs the same there. -/
theorem run_embed {h : Handler Op Res σ} {h' : Handler Op Res τ} {embed : σ → τ}
    (part : ∀ op s, h' op (embed s) = ((h op s).1, embed (h op s).2))
    (p : Program Op Res α) (s : σ) :
    p.run h' (embed s) = ((p.run h s).1, embed (p.run h s).2) := by
  induction p generalizing s with
  | done a => rfl
  | call op next ih =>
    calc (call op next).run h' (embed s)
        = (next (h' op (embed s)).1).run h' (h' op (embed s)).2 := rfl
      _ = (next (h op s).1).run h' (embed (h op s).2) := by rw [part]
      _ = _ := ih _ _

/-- The calls of a trace, each as it was carried out. -/
inductive Realises : List (Answered Op Res) → List (Answered Op' Res') → Prop
  | nil : Realises [] []
  | cons {op : Op} {r : Res op} {es : List (Answered Op Res)}
    {below rest : List (Answered Op' Res')} :
      (impl op).Traces below r → Realises es rest → Realises (⟨op, r⟩ :: es) (below ++ rest)

variable {impl}

/-- The traces of a lowered program are those of the program, carried out. -/
theorem traces_lower {p : Program Op Res α} {below : List (Answered Op' Res')} {a : α} :
    (p.lower impl).Traces below a ↔ ∃ es, p.Traces es a ∧ Realises impl es below := by
  constructor
  · intro traced
    induction p generalizing below with
    | done b =>
      obtain ⟨rfl, rfl⟩ := traces_pure.mp traced
      exact ⟨[], .done a, .nil⟩
    | call op next ih =>
      have split : (impl op >>= fun r => (next r).lower impl).Traces below a := traced
      obtain ⟨r, below₁, below₂, carried, later, rfl⟩ := traces_bind.mp split
      obtain ⟨es, traced', realised⟩ := ih r later
      exact ⟨⟨op, r⟩ :: es, .call r traced', .cons carried realised⟩
  · rintro ⟨es, traced, realised⟩
    induction traced generalizing below with
    | done a =>
      cases realised
      exact .done a
    | @call op next r es a _ ih =>
      cases realised with
      | cons carried rest => exact traces_bind.mpr ⟨r, _, _, carried, ih rest, rfl⟩

end Program

namespace Monitor

open Program

variable {M : Monitor Op Res τ} {m : Monitor Op' Res' σ} {view : τ → σ}
  {impl : Implementation Op Res Op' Res'}

/-- Each call allowed above is carried out as the monitor below wants it, which then knows what the
one above does. -/
def Sound (M : Monitor Op Res τ) (m : Monitor Op' Res' σ) (view : τ → σ)
    (impl : Implementation Op Res Op' Res') : Prop :=
  ∀ s op, M.allows s op → m.Obeys (view s) (impl op) fun r => view (M.next s ⟨op, r⟩)

theorem Sound.accepts (sound : Sound M m view impl) {es : List (Answered Op Res)}
    {below : List (Answered Op' Res')} (realised : Realises impl es below) {s : τ}
    (accepted : M.Accepts s es) :
    m.Accepts (view s) below ∧ m.after (view s) below = view (M.after s es) := by
  induction realised generalizing s with
  | nil => exact ⟨trivial, rfl⟩
  | @cons op r es below rest carried _ ih =>
    obtain ⟨first, known⟩ := sound s op accepted.1 below r carried
    obtain ⟨later, known'⟩ := ih accepted.2
    rw [accepts_append, after_append, known]
    exact ⟨⟨first, later⟩, known'⟩

/-- A program that obeys the monitor above obeys the one below when it is lowered. -/
theorem Obeys.lower (sound : Sound M m view impl) {p : Program Op Res α} {s : τ} {s' : α → τ}
    (obeys : M.Obeys s p s') : m.Obeys (view s) (p.lower impl) fun a => view (s' a) := by
  intro below a traced
  obtain ⟨es, above, realised⟩ := traces_lower.mp traced
  obtain ⟨accepted, known⟩ := obeys es a above
  obtain ⟨accepted', known'⟩ := sound.accepts realised accepted
  exact ⟨accepted', known'.trans (congrArg view known)⟩

theorem Leads.lower (sound : Sound M m view impl) {p : Program Op Res α} {s : τ} {Q : α → τ → Prop}
    (leads : M.Leads s p Q) : m.Leads (view s) (p.lower impl) fun a s' => ∃ t,
      s' = view t ∧ Q a t := by
  intro below a traced
  obtain ⟨es, above, realised⟩ := traces_lower.mp traced
  obtain ⟨accepted, holds⟩ := leads es a above
  obtain ⟨accepted', known⟩ := sound.accepts realised accepted
  exact ⟨accepted', _, known, holds⟩

end Monitor

end Library
