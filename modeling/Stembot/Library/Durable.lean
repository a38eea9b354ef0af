import Mathlib.Data.List.Induction
import Mathlib.Logic.Function.Basic
import Mathlib.Tactic.Common

/-!
# Cells that lose what was not flushed

A write shows at once, and it is there to stay when all has been flushed. At a
crash before that, each cell is kept or goes back by itself. So what a cell holds
comes from the last write of it that no crash has undone.
-/

namespace Library

variable {κ ν : Type}

/-- What happens to the cells. A crash says which of them are kept. -/
inductive Stroke (κ ν : Type) where
  | write (k : κ) (v : ν)
  | flush
  | clear
  | crash (kept : κ → Bool)

structure Cells (κ ν : Type) where
  live : κ → Option ν
  durable : κ → Option ν

namespace Stroke

/-- The next stroke that is not a write is a crash that takes the cell back. `soFar` is the answer
when there has been none yet. -/
def reverted (k : κ) (soFar : Bool) : List (Stroke κ ν) → Bool
  | [] => soFar
  | .write _ _ :: rest => reverted k soFar rest
  | .crash kept :: _ => !kept k
  | .flush :: _ | .clear :: _ => false

section Reverted

variable (k : κ) (soFar : Bool) (strokes : List (Stroke κ ν))

theorem reverted_write (k' : κ) (v : ν) :
    reverted k soFar (strokes ++ [.write k' v]) = reverted k soFar strokes := by
  induction strokes with
  | nil => rfl
  | cons stroke rest ih =>
    cases stroke with
    | write => exact ih
    | _ => rfl

theorem reverted_flush : reverted k soFar (strokes ++ [.flush]) = reverted k false strokes := by
  induction strokes with
  | nil => rfl
  | cons stroke rest ih =>
    cases stroke with
    | write => exact ih
    | _ => rfl

theorem reverted_crash (kept : κ → Bool) :
    reverted k soFar (strokes ++ [.crash kept]) = reverted k (!kept k) strokes := by
  induction strokes with
  | nil => rfl
  | cons stroke rest ih =>
    cases stroke with
    | write => exact ih
    | _ => rfl

variable {k strokes}

theorem reverted_mono (reverts : reverted k false strokes = true) :
    reverted k soFar strokes = true := by
  induction strokes with
  | nil => cases reverts
  | cons stroke rest ih =>
    cases stroke with
    | write => exact ih reverts
    | _ => exact reverts

end Reverted

variable [DecidableEq κ]

/-- Nothing has been cleared, and each write of the cell has been reverted. -/
def undone (k : κ) (soFar : Bool) : List (Stroke κ ν) → Bool
  | [] => true
  | .write k' _ :: rest => (k' ≠ k || reverted k soFar rest) && undone k soFar rest
  | .clear :: _ => false
  | .flush :: rest | .crash _ :: rest => undone k soFar rest

section Undone

variable (k : κ) (soFar : Bool) (strokes : List (Stroke κ ν))

theorem undone_write (k' : κ) (v : ν) :
    undone k soFar (strokes ++ [.write k' v]) = (undone k soFar strokes && (k' ≠ k || soFar)) := by
  induction strokes with
  | nil => simp [undone, reverted]
  | cons stroke rest ih =>
    cases stroke with
    | write => simp only [List.cons_append, undone, reverted_write, ih, Bool.and_assoc]
    | clear => rfl
    | _ => exact ih

theorem undone_flush : undone k soFar (strokes ++ [.flush]) = undone k false strokes := by
  induction strokes with
  | nil => rfl
  | cons stroke rest ih =>
    cases stroke with
    | write => simp only [List.cons_append, undone, reverted_flush, ih]
    | clear => rfl
    | _ => exact ih

theorem undone_crash (kept : κ → Bool) :
    undone k soFar (strokes ++ [.crash kept]) = undone k (!kept k) strokes := by
  induction strokes with
  | nil => rfl
  | cons stroke rest ih =>
    cases stroke with
    | write => simp only [List.cons_append, undone, reverted_crash, ih]
    | clear => rfl
    | _ => exact ih

variable {k strokes}

theorem undone_mono (undoes : undone k false strokes = true) : undone k soFar strokes = true := by
  induction strokes with
  | nil => rfl
  | cons stroke rest ih =>
    cases stroke with
    | write k' v =>
      simp only [undone, Bool.and_eq_true, Bool.or_eq_true] at undoes ⊢
      exact ⟨undoes.1.imp_right (reverted_mono soFar), ih undoes.2⟩
    | clear => cases undoes
    | _ => exact ih undoes

end Undone

end Stroke

namespace Cells

/-- What a cell holds right after these strokes: at the start, after a clearance, or after a
write of it. -/
inductive Source (c : Cells κ ν) (k : κ) : List (Stroke κ ν) → Option ν → Prop
  | start : Source c k [] (c.live k)
  | cleared (before : List (Stroke κ ν)) : Source c k (before ++ [.clear]) none
  | written (before : List (Stroke κ ν)) (v : ν) : Source c k (before ++ [.write k v]) (some v)

variable [DecidableEq κ]

def step (c : Cells κ ν) : Stroke κ ν → Cells κ ν
  | .write k v => { c with live := Function.update c.live k (some v) }
  | .flush => { c with durable := c.live }
  | .clear => ⟨fun _ => none, fun _ => none⟩
  | .crash kept =>
    let left k := if kept k then c.live k else c.durable k
    ⟨left, left⟩

def run (c : Cells κ ν) (strokes : List (Stroke κ ν)) : Cells κ ν := strokes.foldl step c

@[simp] theorem run_nil (c : Cells κ ν) : c.run [] = c := rfl

theorem run_append (c : Cells κ ν) (strokes later : List (Stroke κ ν)) :
    c.run (strokes ++ later) = (c.run strokes).run later :=
  List.foldl_append

/-- The content is what the cell held at some point, and what was done to it later was undone. -/
def From (c : Cells κ ν) (k : κ) (soFar : Bool) (strokes : List (Stroke κ ν))
    (content : Option ν) : Prop :=
  ∃ before after, strokes = before ++ after ∧ c.Source k before content ∧
    Stroke.undone k soFar after = true

section From

variable {c : Cells κ ν} {k : κ} {soFar : Bool} {strokes : List (Stroke κ ν)} {content : Option ν}

theorem Source.from (source : c.Source k strokes content) : c.From k soFar strokes content :=
  ⟨strokes, [], (List.append_nil _).symm, source, rfl⟩

theorem From.mono (held : c.From k false strokes content) (soFar : Bool) :
    c.From k soFar strokes content := by
  obtain ⟨before, after, split, source, undoes⟩ := held
  exact ⟨before, after, split, source, Stroke.undone_mono soFar undoes⟩

/-- A content that was not there at the start has been written. -/
theorem From.written {v : ν} (held : c.From k soFar strokes (some v)) (other : c.live k ≠ some v) :
    .write k v ∈ strokes := by
  obtain ⟨before, after, rfl, source, -⟩ := held
  generalize same : some v = content at source
  cases source with
  | start => exact absurd same.symm other
  | cleared => cases same
  | written before v' =>
    cases same
    exact List.mem_append_left _ (List.mem_append_right _ (List.mem_singleton_self _))

/-- One more stroke, after which what was undone still is. -/
theorem From.snoc {stroke : Stroke κ ν} {soFar' : Bool} (held : c.From k soFar strokes content)
    (undoes : ∀ after, Stroke.undone k soFar after = true →
    Stroke.undone k soFar' (after ++ [stroke]) = true) :
    c.From k soFar' (strokes ++ [stroke]) content := by
  obtain ⟨before, after, rfl, source, gone⟩ := held
  exact ⟨before, after ++ [stroke], List.append_assoc .., source, undoes after gone⟩

theorem From.flush (held : c.From k false strokes content) :
    c.From k soFar (strokes ++ [.flush]) content := by
  apply held.snoc
  intro after gone
  rwa [Stroke.undone_flush]

theorem From.crash {kept : κ → Bool} (held : c.From k (!kept k) strokes content) :
    c.From k soFar (strokes ++ [.crash kept]) content := by
  apply held.snoc
  intro after gone
  rwa [Stroke.undone_crash]

end From

/-- A cell holds what it held at some point since which nothing has happened to it that is not
undone. After a crash it may hold what it held at another point, since which nothing has happened
that the crash does not undo. -/
theorem run_from {c : Cells κ ν} (settled : c.durable = c.live) (strokes : List (Stroke κ ν))
    (k : κ) :
    c.From k false strokes ((c.run strokes).live k) ∧
      c.From k true strokes ((c.run strokes).durable k) := by
  induction strokes using List.reverseRecOn with
  | nil =>
    refine ⟨Source.start.from, ?_⟩
    rw [run_nil, settled]
    exact Source.start.from
  | append_singleton strokes stroke ih =>
    obtain ⟨live, durable⟩ := ih
    rw [run_append]
    generalize c.run strokes = now at live durable
    cases stroke with
    | write k' v =>
      constructor
      · change c.From k false _ (Function.update now.live k' (some v) k)
        by_cases same : k = k'
        · subst same
          rw [Function.update_self]
          exact (Source.written strokes v).from
        · rw [Function.update_of_ne same]
          apply live.snoc
          intro after gone
          simp [Stroke.undone_write, gone, Ne.symm same]
      · apply durable.snoc
        intro after gone
        simp [Stroke.undone_write, gone]
    | flush => exact ⟨live.flush, live.flush⟩
    | clear => exact ⟨(Source.cleared strokes).from, (Source.cleared strokes).from⟩
    | crash kept =>
      have either (soFar : Bool) : c.From k soFar (strokes ++ [.crash kept])
          (if kept k then now.live k else now.durable k) := by
        cases keeps : kept k with
        | true => exact (live.mono _).crash
        | false =>
          apply From.crash
          rw [keeps]
          exact durable
      exact ⟨either false, either true⟩

theorem run_keeps {c : Cells κ ν} {k : κ} {content : Option ν} (live : c.live k = content)
    (durable : c.durable k = content) {strokes : List (Stroke κ ν)} (uncleared : .clear ∉ strokes)
    (unwritten : ∀ v, .write k v ∉ strokes) :
    (c.run strokes).live k = content ∧ (c.run strokes).durable k = content := by
  induction strokes generalizing c with
  | nil => exact ⟨live, durable⟩
  | cons stroke rest ih =>
    have uncleared' : .clear ∉ rest := fun member => uncleared (List.mem_cons_of_mem _ member)
    have unwritten' : ∀ v, .write k v ∉ rest :=
      fun v member => unwritten v (List.mem_cons_of_mem _ member)
    apply ih (c := c.step stroke) _ _ uncleared' unwritten'
    all_goals
      cases stroke with
      | write k' v =>
        have other : k ≠ k' := fun same => unwritten v (same ▸ List.mem_cons_self)
        simpa [step, Function.update_of_ne other]
      | flush => exact live
      | clear => exact absurd List.mem_cons_self uncleared
      | crash kept =>
        simp only [step]
        split
        · exact live
        · exact durable

/-- What a cell shows stays as long as it is not written, and all is neither cleared nor crashes. -/
theorem run_shows {c : Cells κ ν} {k : κ} {content : Option ν} (live : c.live k = content)
    {strokes : List (Stroke κ ν)} (steady : ∀ kept, .crash kept ∉ strokes)
    (uncleared : .clear ∉ strokes) (unwritten : ∀ v, .write k v ∉ strokes) :
    (c.run strokes).live k = content := by
  induction strokes generalizing c with
  | nil => exact live
  | cons stroke rest ih =>
    apply ih (c := c.step stroke) _ (fun kept member => steady kept (List.mem_cons_of_mem _ member))
      (fun member => uncleared (List.mem_cons_of_mem _ member))
      (fun v member => unwritten v (List.mem_cons_of_mem _ member))
    cases stroke with
    | write k' v =>
      have other : k ≠ k' := fun same => unwritten v (same ▸ List.mem_cons_self)
      simpa [step, Function.update_of_ne other]
    | flush => exact live
    | clear => exact absurd List.mem_cons_self uncleared
    | crash kept => exact absurd List.mem_cons_self (steady kept)

/-- A write that was flushed before a crash shows until the cell is written again or all
is cleared. -/
theorem run_flushed (c : Cells κ ν) {k : κ} {v : ν} (before : List (Stroke κ ν))
    {between after : List (Stroke κ ν)} (steady : ∀ kept, .crash kept ∉ between)
    (uncleared : .clear ∉ between ++ after) (unwritten : ∀ v, .write k v ∉ between ++ after) :
    (c.run (before ++ .write k v :: (between ++ .flush :: after))).live k = some v := by
  let written := ((c.run before).step (.write k v)).run between
  have shown : written.live k = some v := by
    refine run_shows (Function.update_self ..) steady ?_ ?_
    · exact fun member => uncleared (List.mem_append_left _ member)
    · exact fun v member => unwritten v (List.mem_append_left _ member)
  have split : c.run (before ++ .write k v :: (between ++ .flush :: after)) =
      (written.step .flush).run after := by
    rw [run_append]
    exact run_append ..
  rw [split]
  refine (run_keeps (c := written.step .flush) shown shown ?_ ?_).1
  · exact fun member => uncleared (List.mem_append_right _ member)
  · exact fun v member => unwritten v (List.mem_append_right _ member)

end Cells

end Library
