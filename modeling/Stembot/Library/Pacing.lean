import Mathlib.Data.List.Infix
import Mathlib.Tactic.Common

/-!
# Paced loops

A loop pauses, attempts something, and succeeds or fails. When it goes on without
a pause only right after a success, its attempts are bounded by its pauses and its
successes, at every moment.
-/

namespace Library

/-- What can be seen of a loop. -/
inductive Beat where
  | pause
  | attempt
  | outcome (success : Bool)
  deriving DecidableEq

/-- The pauses of one lap, and the outcome of its attempt if it made one. -/
structure Paces where
  pauses : Nat
  attempt : Option Bool

namespace Paces

def beats (v : Paces) : List Beat :=
  List.replicate v.pauses .pause ++ v.attempt.elim [] fun success => [.attempt, .outcome success]

def succeeds (v : Paces) : Bool := v.attempt.getD false

end Paces

def attemptsIn (bs : List Beat) : Nat := bs.count .attempt

def pausesIn (bs : List Beat) : Nat := bs.count .pause

def successesIn (bs : List Beat) : Nat := bs.count (.outcome true)

section Counts

variable (bs bs' : List Beat)

@[simp] theorem attemptsIn_append : attemptsIn (bs ++ bs') = attemptsIn bs + attemptsIn bs' :=
  List.count_append

@[simp] theorem pausesIn_append : pausesIn (bs ++ bs') = pausesIn bs + pausesIn bs' :=
  List.count_append

@[simp] theorem successesIn_append : successesIn (bs ++ bs') = successesIn bs + successesIn bs' :=
  List.count_append

end Counts

namespace Paces

variable (v : Paces)

@[simp] theorem attemptsIn_beats : attemptsIn v.beats = v.attempt.isSome.toNat := by
  obtain ⟨n, attempt⟩ := v
  cases attempt <;> simp [beats, attemptsIn, List.count_replicate]

@[simp] theorem successesIn_beats : successesIn v.beats = v.succeeds.toNat := by
  obtain ⟨n, attempt⟩ := v
  rcases attempt with _ | _ | _ <;> simp [beats, successesIn, succeeds, List.count_replicate]

end Paces

/-- A beginning of two stretches ends in the first, or takes up all of it. -/
theorem prefix_append_cases {α : Type} {xs ys zs : List α} (h : xs <+: ys ++ zs) :
    xs <+: ys ∨ ∃ ws, xs = ys ++ ws ∧ ws <+: zs := by
  obtain ⟨rest, split⟩ := h
  rcases List.append_eq_append_iff.mp split with ⟨as, rfl, -⟩ | ⟨ws, rfl, rfl⟩
  · exact .inl (List.prefix_append xs as)
  · exact .inr ⟨ws, rfl, List.prefix_append ws rest⟩

/-- Every lap pauses or is licensed: by the success of the lap before it, or at the start. -/
def Paced : Bool → List Paces → Prop
  | _, [] => True
  | licensed, v :: vs => (v.pauses = 0 → licensed = true) ∧ Paced v.succeeds vs

namespace Paced

variable {licensed : Bool} {v : Paces} {vs : List Paces}

/-- In the course of a lap. -/
theorem lap_bound (paced : v.pauses = 0 → licensed = true) {bs : List Beat}
    (part : bs <+: v.beats) :
    attemptsIn bs ≤ pausesIn bs + licensed.toNat := by
  have once : attemptsIn bs ≤ 1 := by
    calc attemptsIn bs ≤ attemptsIn v.beats := part.sublist.count_le _
      _ = v.attempt.isSome.toNat := v.attemptsIn_beats
      _ ≤ 1 := Bool.toNat_le _
  rcases prefix_append_cases part with waiting | ⟨ws, rfl, -⟩
  · have none : attemptsIn bs = 0 := by
      refine List.count_eq_zero.mpr fun member => ?_
      cases List.eq_of_mem_replicate (waiting.subset member)
    omega
  · have waited : v.pauses ≤ pausesIn (List.replicate v.pauses .pause ++ ws) := by simp [pausesIn]
    by_cases unpaused : v.pauses = 0
    · simp only [paced unpaused, Bool.toNat_true]
      omega
    · omega

/-- At every moment, the attempts are at most the pauses and the successes. -/
theorem bound (paced : Paced licensed vs) {bs : List Beat} (part : bs <+: vs.flatMap Paces.beats) :
    attemptsIn bs ≤ pausesIn bs + successesIn bs + licensed.toNat := by
  induction vs generalizing licensed bs with
  | nil =>
    obtain rfl := List.prefix_nil.mp part
    exact Nat.zero_le _
  | cons v vs ih =>
    rcases prefix_append_cases part with within | ⟨ws, rfl, later⟩
    · have := lap_bound paced.1 within
      omega
    · have first := lap_bound paced.1 (List.prefix_refl _)
      have rest := ih paced.2 later
      simp only [attemptsIn_append, pausesIn_append, successesIn_append,
        Paces.successesIn_beats] at *
      omega

/-- A lap without a pause is licensed, or follows a lap that succeeded. -/
theorem follows {before after : List Paces} (paced : Paced licensed (before ++ v :: after))
    (unpaused : v.pauses = 0) :
    (before = [] ∧ licensed = true) ∨ ∃ earlier u, before = earlier ++ [u] ∧ u.succeeds = true := by
  induction before generalizing licensed with
  | nil => exact .inl ⟨rfl, paced.1 unpaused⟩
  | cons u before ih =>
    rcases ih paced.2 with ⟨rfl, succeeded⟩ | ⟨earlier, u', rfl, succeeded⟩
    · exact .inr ⟨[], u, rfl, succeeded⟩
    · exact .inr ⟨u :: earlier, u', rfl, succeeded⟩

end Paced

end Library
