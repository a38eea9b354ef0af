import Mathlib.Data.List.Forall2
import Stembot.Library.Trace

/-!
# Logs

A device may keep a log that every call adds to. What a run adds to it is what its
calls add, in order, and belongs to its parts as the calls do.
-/

namespace Library

namespace Program

variable {Op : Type} {Res : Op → Type} {α σ : Type}

/-- A log that every call adds to is made of what the calls of the run have added. -/
theorem run_logs {ε : Type} {I : σ → Prop} {h : Handler Op Res σ} (log : σ → List ε)
    {R : Answered Op Res → List ε → Prop}
    (step : ∀ op s, I s → I (h op s).2 ∧ ∃ added, log (h op s).2 = log s ++ added ∧
    R ⟨op, (h op s).1⟩ added) (p : Program Op Res α) {s : σ} (inv : I s) :
    ∃ added, log (p.run h s).2 = log s ++ added.flatten ∧ List.Forall₂ R (p.trace h s) added := by
  induction p generalizing s with
  | done a => exact ⟨[], (List.append_nil _).symm, .nil⟩
  | call op next ih =>
    obtain ⟨inv', first, logged, related⟩ := step op s inv
    obtain ⟨added, logged', related'⟩ := ih (h op s).1 inv'
    refine ⟨first :: added, ?_, .cons related related'⟩
    calc log (run h (.call op next) s).2
        = log (h op s).2 ++ added.flatten := logged'
      _ = log s ++ (first :: added).flatten := by rw [logged, List.append_assoc, List.flatten_cons]

end Program

section Parts

variable {α β : Type} {R : α → β → Prop}

/-- What a call has added to the log. -/
theorem exists_of_forall₂ {xs : List α} {ys : List β} (related : List.Forall₂ R xs ys)
    {y : β} (member : y ∈ ys) :
    ∃ before x after, xs = before ++ x :: after ∧ R x y := by
  induction related with
  | nil => cases member
  | @cons x y' xs ys first _ ih =>
    rcases List.mem_cons.mp member with rfl | later
    · exact ⟨[], x, xs, rfl, first⟩
    · obtain ⟨before, x', after, split, holds⟩ := ih later
      exact ⟨x :: before, x', after, by rw [split]; rfl, holds⟩

/-- What the calls of two parts of a run have added. -/
theorem forall₂_append_left {xs xs' : List α} {ys : List β}
    (related : List.Forall₂ R (xs ++ xs') ys) :
    ∃ front back, ys = front ++ back ∧ List.Forall₂ R xs front ∧ List.Forall₂ R xs' back := by
  refine ⟨ys.take xs.length, ys.drop xs.length, (List.take_append_drop _ _).symm, ?_, ?_⟩
  · exact (List.forall₂_take_append ys xs xs' related.flip).flip
  · exact (List.forall₂_drop_append ys xs xs' related.flip).flip

/-- What the calls of many parts of a run have added, part by part. -/
theorem forall₂_flatMap {ι : Type} {f : ι → List α} {is : List ι} {ys : List β}
    (related : List.Forall₂ R (is.flatMap f) ys) :
    ∃ parts : List (ι × List β), parts.map Prod.fst = is ∧ parts.flatMap Prod.snd = ys ∧
      ∀ part ∈ parts, List.Forall₂ R (f part.1) part.2 := by
  induction is generalizing ys with
  | nil =>
    cases related
    exact ⟨[], rfl, rfl, by simp⟩
  | cons i is ih =>
    rw [List.flatMap_cons] at related
    obtain ⟨front, back, rfl, first, rest⟩ := forall₂_append_left related
    obtain ⟨parts, whole, added, each⟩ := ih rest
    refine ⟨(i, front) :: parts, by rw [← whole]; rfl, by rw [← added]; rfl, ?_⟩
    intro part member
    rcases List.mem_cons.mp member with rfl | later
    · exact first
    · exact each part later

end Parts

end Library
