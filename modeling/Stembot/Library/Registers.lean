import Mathlib.Data.List.Nodup
import Mathlib.Logic.Function.Basic
import Mathlib.Tactic.Common

/-!
# Registers written one at a time

A writer copies one tuple after the other into shared registers, in a fixed order
and a register at a time, while a reader looks at them as it likes. Nothing keeps
the two apart, so what the reader sees can mix tuples; which tuples it can mix is
recorded as the run goes on.
-/

namespace Library

variable {ι : Type} {α : ι → Type}

/-- What the writer does next, or that the reader begins to look at the registers or has seen
enough of them. -/
inductive Access (α : ι → Type) where
  | begin (tuple : (i : ι) → α i)
  | write
  | look
  | rest

/-- `tuple` is being copied as long as there are registers in `unwritten`. The last three fields are
a record of the run: the tuple that was copied last in full, the one that was when the reader began,
and those that were in progress while it was `reading`. -/
structure Registers (α : ι → Type) where
  cells : (i : ι) → α i
  tuple : (i : ι) → α i
  unwritten : List ι := []
  reading : Bool := false
  latest : (i : ι) → α i
  base : (i : ι) → α i
  overlapping : List ((i : ι) → α i) := []

namespace Registers

/-- Registers that hold `tuple`. -/
def holding (tuple : (i : ι) → α i) : Registers α :=
  { cells := tuple, tuple, latest := tuple, base := tuple }

section Step

variable [DecidableEq ι] (order : List ι)

/-- The writer begins when it is done with the tuple before. -/
def step (r : Registers α) : Access α → Registers α
  | .begin tuple =>
    if r.unwritten = [] then
      { r with
        tuple
        unwritten := order
        overlapping := if r.reading then r.overlapping ++ [tuple] else r.overlapping }
    else r
  | .write =>
    match r.unwritten with
    | [] => r
    | i :: rest =>
      { r with
        cells := Function.update r.cells i (r.tuple i)
        unwritten := rest
        latest := if rest = [] then r.tuple else r.latest }
  | .look =>
    { r with
      reading := true
      base := r.latest
      overlapping := if r.unwritten = [] then [] else [r.tuple] }
  | .rest => { r with reading := false }

def run (r : Registers α) (accesses : List (Access α)) : Registers α :=
  accesses.foldl (step order) r

end Step

/-- The tuple in the registers that are not waiting to be written. -/
def current (r : Registers α) : (i : ι) → α i := if r.unwritten = [] then r.latest else r.tuple

/-- The tuples that the reader may have seen something of. -/
def sources (r : Registers α) : List ((i : ι) → α i) := r.base :: r.overlapping

/-- A register holds the tuple in progress if that was copied to it already, and else the one
before. Both are sources while the reader is at work. -/
structure Consistent (order : List ι) (r : Registers α) : Prop where
  suffix : r.unwritten <:+ order
  pending : ∀ i ∈ r.unwritten, r.cells i = r.latest i
  written : ∀ i ∈ order, i ∉ r.unwritten → r.cells i = r.current i
  watched : r.reading = true → r.latest ∈ r.sources ∧ r.current ∈ r.sources
  alone : r.reading = true → r.overlapping = [] → r.unwritten = []

theorem consistent_holding (order : List ι) (tuple : (i : ι) → α i) :
    (holding tuple).Consistent order where
  suffix := List.nil_suffix
  pending i member := by simp [holding] at member
  written i _ _ := rfl
  watched := nofun
  alone := nofun

section Step

variable [DecidableEq ι] {order : List ι} {r : Registers α}

omit [DecidableEq ι] in
/-- Every register holds a source while the reader is at work. -/
theorem Consistent.cells_mem (consistent : r.Consistent order) (busy : r.reading = true) {i : ι}
    (member : i ∈ order) : ∃ t ∈ r.sources, r.cells i = t i := by
  classical
  obtain ⟨latest, current⟩ := consistent.watched busy
  by_cases waiting : i ∈ r.unwritten
  · exact ⟨r.latest, latest, consistent.pending i waiting⟩
  · exact ⟨r.current, current, consistent.written i member waiting⟩

omit [DecidableEq ι] in
/-- Without a write in progress the registers hold one tuple. -/
theorem Consistent.cells_settled (consistent : r.Consistent order) (settled : r.unwritten = [])
    {i : ι} (member : i ∈ order) : r.cells i = r.latest i := by
  simpa [current, settled] using consistent.written i member (by simp [settled])

omit [DecidableEq ι] in
/-- While nothing is written, the reader sees one tuple. -/
theorem Consistent.cells_alone (consistent : r.Consistent order) (busy : r.reading = true)
    (alone : r.overlapping = []) {i : ι} (member : i ∈ order) : r.cells i = r.base i := by
  have latest := (consistent.watched busy).1
  rw [sources, alone, List.mem_singleton] at latest
  rw [consistent.cells_settled (consistent.alone busy alone) member, latest]

theorem Consistent.begin (consistent : r.Consistent order) (tuple : (i : ι) → α i) :
    (r.step order (.begin tuple)).Consistent order := by
  by_cases idle : r.unwritten = []
  · simp only [step, idle, if_true]
    exact {
      suffix := List.suffix_rfl
      pending := fun i member => consistent.cells_settled idle member
      written := fun i member absent => absurd member absent
      watched := by
        intro busy
        have busy : r.reading = true := busy
        have latest := (consistent.watched busy).1
        simp only [sources, current, if_pos busy, List.mem_cons, List.mem_append] at latest ⊢
        refine ⟨latest.imp_right .inl, ?_⟩
        split
        · exact latest.imp_right .inl
        · exact .inr (.inr (.inl rfl))
      alone := by
        intro busy alone
        have busy : r.reading = true := busy
        rw [if_pos busy] at alone
        exact absurd alone (by simp) }
  · simpa [step, idle] using consistent

theorem Consistent.write (nodup : order.Nodup) (consistent : r.Consistent order) :
    (r.step order .write).Consistent order := by
  cases todo : r.unwritten with
  | nil => simpa [step, todo] using consistent
  | cons i rest =>
    have suffix : rest <:+ order := (List.suffix_cons i rest).trans (todo ▸ consistent.suffix)
    have fresh : i ∉ rest := by
      have tail : (i :: rest).Nodup := nodup.sublist (todo ▸ consistent.suffix).sublist
      exact (List.nodup_cons.mp tail).1
    have tuple : r.current = r.tuple := by simp [current, todo]
    simp only [step, todo]
    exact {
      suffix
      pending := by
        intro j waiting
        have other : j ≠ i := fun same => fresh (same ▸ waiting)
        have more : rest ≠ [] := List.ne_nil_of_mem waiting
        simpa [Function.update_of_ne other, more] using
          consistent.pending j (by simp [todo, waiting])
      written := by
        intro j member done
        have current : (if rest = [] then if rest = [] then r.tuple else r.latest else r.tuple) =
            r.tuple := by
          split <;> rfl
        simp only [Registers.current, current]
        by_cases same : j = i
        · subst same
          exact Function.update_self ..
        · rw [Function.update_of_ne same, ← tuple]
          exact consistent.written j member (by simp [todo, same, done])
      watched := by
        intro busy
        obtain ⟨latest, current⟩ := consistent.watched busy
        rw [tuple] at current
        by_cases last : rest = []
        · simp only [Registers.current, last, if_true]
          exact ⟨current, current⟩
        · simp only [Registers.current, if_neg last]
          exact ⟨latest, current⟩
      alone := by
        intro busy alone
        cases todo.symm.trans (consistent.alone busy alone) }

theorem Consistent.look (consistent : r.Consistent order) :
    (r.step order .look).Consistent order where
  suffix := consistent.suffix
  pending := consistent.pending
  written := consistent.written
  watched _ := by
    refine ⟨List.mem_cons_self, ?_⟩
    by_cases settled : r.unwritten = [] <;> simp [step, current, sources, settled]
  alone _ alone := by
    by_cases settled : r.unwritten = []
    · exact settled
    · simp [step, settled] at alone

theorem Consistent.rest (consistent : r.Consistent order) :
    (r.step order .rest).Consistent order where
  suffix := consistent.suffix
  pending := consistent.pending
  written := consistent.written
  watched := nofun
  alone := nofun

/-- The reader's sources are kept by the writer, and more are added while it is reading. -/
theorem sources_begin (r : Registers α) (tuple : (i : ι) → α i) :
    r.sources ⊆ (r.step order (.begin tuple)).sources := by
  simp only [step, sources]
  split
  · refine List.cons_subset_cons _ ?_
    dsimp only
    split
    · exact List.subset_append_left ..
    · exact List.Subset.refl _
  · exact List.Subset.refl _

theorem sources_write (r : Registers α) : (r.step order .write).sources = r.sources := by
  simp only [step, sources]
  split <;> rfl

end Step

/-- The tuples that the writer began to copy. -/
def begun : List (Access α) → List ((i : ι) → α i)
  | [] => []
  | .begin tuple :: accesses => tuple :: begun accesses
  | _ :: accesses => begun accesses

/-- Every tuple on record satisfies `P`. -/
structure Recorded (P : ((i : ι) → α i) → Prop) (r : Registers α) : Prop where
  tuple : P r.tuple
  latest : P r.latest
  base : P r.base
  overlapping : ∀ t ∈ r.overlapping, P t

section Step

variable [DecidableEq ι] {order : List ι} {r : Registers α} {P : ((i : ι) → α i) → Prop}

theorem Recorded.step (recorded : r.Recorded P) {access : Access α}
    (begins : ∀ t ∈ begun [access], P t) : (r.step order access).Recorded P := by
  obtain ⟨tuple, latest, base, overlapping⟩ := recorded
  cases access with
  | begin t =>
    have first : P t := begins t List.mem_cons_self
    simp only [Registers.step]
    split
    · refine ⟨first, latest, base, ?_⟩
      intro u member
      dsimp only at member
      split at member
      · rcases List.mem_append.mp member with before | now
        · exact overlapping u before
        · rw [List.mem_singleton.mp now]
          exact first
      · exact overlapping u member
    · exact ⟨tuple, latest, base, overlapping⟩
  | write =>
    simp only [Registers.step]
    split
    · exact ⟨tuple, latest, base, overlapping⟩
    · refine ⟨tuple, ?_, base, overlapping⟩
      dsimp only
      split
      · exact tuple
      · exact latest
  | look =>
    refine ⟨tuple, latest, latest, ?_⟩
    intro u member
    simp only [Registers.step] at member
    split at member
    · cases member
    · rw [List.mem_singleton.mp member]
      exact tuple
  | rest => exact ⟨tuple, latest, base, overlapping⟩

theorem Recorded.run (recorded : r.Recorded P) {accesses : List (Access α)}
    (begins : ∀ t ∈ begun accesses, P t) : (r.run order accesses).Recorded P := by
  induction accesses generalizing r with
  | nil => exact recorded
  | cons access accesses ih =>
    have split : begun (access :: accesses) = begun [access] ++ begun accesses := by
      cases access <;> rfl
    rw [split] at begins
    exact ih (recorded.step fun t member => begins t (List.mem_append_left _ member))
      fun t member => begins t (List.mem_append_right _ member)

/-- Every source was in the registers at the start, or was begun later. -/
theorem sources_run (initial : (i : ι) → α i) (accesses : List (Access α)) :
    ∀ t ∈ ((holding initial).run order accesses).sources, t = initial ∨ t ∈ begun accesses := by
  have start : (holding initial).Recorded fun t => t = initial ∨ t ∈ begun accesses :=
    ⟨.inl rfl, .inl rfl, .inl rfl, by simp [holding]⟩
  have recorded : ((holding initial).run order accesses).Recorded _ :=
    start.run fun t member => .inr member
  intro t member
  rcases List.mem_cons.mp member with rfl | overlapping
  · exact recorded.base
  · exact recorded.overlapping t overlapping

end Step

end Registers

end Library
