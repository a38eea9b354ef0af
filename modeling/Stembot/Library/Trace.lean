import Stembot.Library.Program

/-!
# Traces of programs

A run in surroundings of which nothing is known: the calls in order, each with
whatever it was answered. What is known of the surroundings is a condition on
single answers.
-/

namespace Library

/-- A call with its answer. -/
abbrev Answered (Op : Type) (Res : Op → Type) := (op : Op) × Res op

namespace Program

variable {Op : Type} {Res : Op → Type} {α β σ : Type}

/-- The calls a program issues when they are answered so, and what it then returns. -/
inductive Traces : Program Op Res α → List (Answered Op Res) → α → Prop
  | done (a : α) : Traces (.done a) [] a
  | call {op : Op} {next : Res op → Program Op Res α} (r : Res op) {es : List (Answered Op Res)}
    {a : α} :
      Traces (next r) es a → Traces (.call op next) (⟨op, r⟩ :: es) a

@[simp] theorem traces_pure {a b : α} {es : List (Answered Op Res)} :
    (pure a : Program Op Res α).Traces es b ↔ es = [] ∧ b = a := by
  constructor
  · rintro ⟨⟩
    exact ⟨rfl, rfl⟩
  · rintro ⟨rfl, rfl⟩
    exact .done b

@[simp] theorem traces_issue {op : Op} {r : Res op} {es : List (Answered Op Res)} :
    (issue op).Traces es r ↔ es = [⟨op, r⟩] := by
  constructor
  · rintro (_ | ⟨_, ⟨⟩⟩)
    rfl
  · rintro rfl
    exact .call r (.done r)

/-- A sequence is traced by a trace of its first part, followed by one of its second. -/
theorem traces_bind {p : Program Op Res α} {k : α → Program Op Res β} {es : List (Answered Op Res)}
    {b : β} :
    (p >>= k).Traces es b ↔ ∃ a es₁ es₂, p.Traces es₁ a ∧ (k a).Traces es₂ b ∧ es = es₁ ++ es₂ := by
  change (p.bind k).Traces es b ↔ _
  constructor
  · intro traced
    induction p generalizing es with
    | done a => exact ⟨a, [], es, .done a, traced, rfl⟩
    | call op next ih =>
      cases traced with
      | call r rest =>
        obtain ⟨a, es₁, es₂, first, second, rfl⟩ := ih r rest
        exact ⟨a, _, es₂, .call r first, second, rfl⟩
  · rintro ⟨a, es₁, es₂, first, second, rfl⟩
    induction first with
    | done a => exact second
    | call r _ ih => exact .call r (ih second)

theorem traces_map {p : Program Op Res α} {f : α → β} {es : List (Answered Op Res)} {b : β} :
    (p >>= fun a => pure (f a)).Traces es b ↔ ∃ a, p.Traces es a ∧ b = f a := by
  rw [traces_bind]
  constructor
  · rintro ⟨a, es₁, es₂, traced, returned, rfl⟩
    obtain ⟨rfl, rfl⟩ := traces_pure.mp returned
    exact ⟨a, by rwa [List.append_nil], rfl⟩
  · rintro ⟨a, traced, rfl⟩
    exact ⟨a, es, [], traced, traces_pure.mpr ⟨rfl, rfl⟩, (List.append_nil es).symm⟩

/-- The calls of a run, as its device answers them. -/
def trace (h : Handler Op Res σ) : Program Op Res α → σ → List (Answered Op Res)
  | .done _, _ => []
  | .call op next, s => ⟨op, (h op s).1⟩ :: (next (h op s).1).trace h (h op s).2

theorem traces_run (h : Handler Op Res σ) (p : Program Op Res α) (s : σ) :
    p.Traces (p.trace h s) (p.run h s).1 := by
  induction p generalizing s with
  | done a => exact .done a
  | call op next ih => exact .call _ (ih _ _)

/-- A run whose device gives the same answers, and stays as it is. -/
theorem Traces.run_eq {h : Handler Op Res σ} {p : Program Op Res α} {s : σ}
    {es : List (Answered Op Res)} {a : α} (traced : p.Traces es a)
    (answered : ∀ e ∈ es, h e.1 s = (e.2, s)) : p.run h s = (a, s) := by
  induction traced with
  | done a => rfl
  | call r _ ih =>
    have first := answered _ List.mem_cons_self
    rw [run, first]
    exact ih fun e member => answered e (List.mem_cons_of_mem _ member)

/-- What is left of a program that has made these calls. -/
inductive After : Program Op Res α → List (Answered Op Res) → Program Op Res α → Prop
  | nil (p : Program Op Res α) : After p [] p
  | call {op : Op} {next : Res op → Program Op Res α} (r : Res op) {es : List (Answered Op Res)}
      {q : Program Op Res α} : After (next r) es q → After (.call op next) (⟨op, r⟩ :: es) q

section After

variable {p q q' : Program Op Res α} {es es' : List (Answered Op Res)}

theorem After.append (first : p.After es q) (second : q.After es' q') : p.After (es ++ es') q' := by
  induction first with
  | nil p => exact second
  | call r _ ih => exact .call r (ih second)

/-- A trace of what is left goes on with the calls that were made. -/
theorem After.traces (first : p.After es q) {a : α} (second : q.Traces es' a) :
    p.Traces (es ++ es') a := by
  induction first with
  | nil p => exact second
  | call r _ ih => exact .call r (ih second)

end After

/-- Whenever the answers are as `G` says, the value and the calls satisfy `Q`. -/
def Ensures (G : Answered Op Res → Prop) (p : Program Op Res α)
    (Q : α → List (Answered Op Res) → Prop) :
    Prop :=
  ∀ es a, p.Traces es a → (∀ e ∈ es, G e) → Q a es

section Ensures

variable {G : Answered Op Res → Prop} {Q : α → List (Answered Op Res) → Prop}

theorem Ensures.pure {a : α} (holds : Q a []) : Ensures G (pure a : Program Op Res α) Q := by
  intro es b traced _
  obtain ⟨rfl, rfl⟩ := traces_pure.mp traced
  exact holds

theorem Ensures.issue {op : Op} {Q : Res op → List (Answered Op Res) → Prop}
    (holds : ∀ r, G ⟨op, r⟩ → Q r [⟨op, r⟩]) : Ensures G (issue op) Q := by
  intro es r traced relied
  obtain rfl := traces_issue.mp traced
  exact holds r (relied _ List.mem_cons_self)

theorem Ensures.bind {p : Program Op Res α} {k : α → Program Op Res β}
    {Q' : β → List (Answered Op Res) → Prop} (first : Ensures G p Q)
    (rest : ∀ a es, Q a es → Ensures G (k a) fun b es' => Q' b (es ++ es')) :
    Ensures G (p >>= k) Q' := by
  intro es b traced relied
  obtain ⟨a, es₁, es₂, traced₁, traced₂, rfl⟩ := traces_bind.mp traced
  have holds := first es₁ a traced₁ fun e member => relied e (List.mem_append_left _ member)
  exact rest a es₁ holds es₂ b traced₂ fun e member => relied e (List.mem_append_right _ member)

/-- Whatever the first part does. -/
theorem Ensures.andThen {p : Program Op Res α} {k : α → Program Op Res β}
    {Q' : β → List (Answered Op Res) → Prop}
    (rest : ∀ a es, Ensures G (k a) fun b es' => Q' b (es ++ es')) : Ensures G (p >>= k) Q' :=
  Ensures.bind (Q := fun _ _ => True) (fun _ _ _ _ => trivial) fun a es _ => rest a es

theorem Ensures.mono {p : Program Op Res α} {Q' : α → List (Answered Op Res) → Prop}
    (ensures : Ensures G p Q') (weaker : ∀ a es, Q' a es → Q a es) : Ensures G p Q :=
  fun es a traced relied => weaker a es (ensures es a traced relied)

end Ensures

section Relied

variable {G : Answered Op Res → Prop} (answerable : ∀ op, ∃ r, G ⟨op, r⟩)
include answerable

theorem exists_traces (p : Program Op Res α) : ∃ es a, p.Traces es a ∧ ∀ e ∈ es, G e := by
  induction p with
  | done a => exact ⟨[], a, .done a, by simp⟩
  | call op next ih =>
    obtain ⟨r, relied⟩ := answerable op
    obtain ⟨es, a, traced, later⟩ := ih r
    refine ⟨⟨op, r⟩ :: es, a, .call r traced, ?_⟩
    intro e member
    rcases List.mem_cons.mp member with rfl | inside
    · exact relied
    · exact later e inside

/-- A run that has been answered as relied on so far may go on like this to its end. -/
theorem Traces.redirect {p : Program Op Res α} {es done rest : List (Answered Op Res)} {a : α}
    (traced : p.Traces es a) (split : es = done ++ rest) (relied : ∀ e ∈ done, G e) :
    ∃ rest' a', p.Traces (done ++ rest') a' ∧ ∀ e ∈ done ++ rest', G e := by
  induction traced generalizing done with
  | done a =>
    obtain ⟨rfl, -⟩ := List.append_eq_nil_iff.mp split.symm
    exact ⟨[], a, .done a, by simp⟩
  | @call op next r es a traced ih =>
    cases done with
    | nil => exact exists_traces answerable _
    | cons e done =>
      obtain ⟨rfl, rfl⟩ := List.cons.inj split
      obtain ⟨rest', a', traced', later⟩ := ih rfl fun e member =>
        relied e (List.mem_cons_of_mem _ member)
      refine ⟨rest', a', .call r traced', ?_⟩
      intro e member
      rcases List.mem_cons.mp member with rfl | inside
      · exact relied _ List.mem_cons_self
      · exact later e inside

end Relied

/-- Every call the program can come to satisfies `P`. -/
def Issues (P : Op → Prop) : Program Op Res α → Prop
  | .done _ => True
  | .call op next => P op ∧ ∀ r, (next r).Issues P

section Issues

variable {P : Op → Prop}

@[simp] theorem issues_pure (a : α) : (pure a : Program Op Res α).Issues P := trivial

@[simp] theorem issues_issue {op : Op} : (issue op : Program Op Res (Res op)).Issues P ↔ P op :=
  ⟨And.left, fun holds => ⟨holds, fun _ => trivial⟩⟩

theorem Issues.bind {p : Program Op Res α} {k : α → Program Op Res β} (first : p.Issues P)
    (rest : ∀ a, (k a).Issues P) : (p >>= k).Issues P := by
  change (p.bind k).Issues P
  induction p with
  | done a => exact rest a
  | call op next ih => exact ⟨first.1, fun r => ih r (first.2 r)⟩

/-- A program behind a guard. -/
theorem Issues.unless {b : Bool} {a : α} {p : Program Op Res α} (rest : b = false → p.Issues P) :
    (if b = true then pure a else p).Issues P := by
  cases b with
  | true => exact issues_pure a
  | false => exact rest rfl

theorem Issues.mono {P' : Op → Prop} {p : Program Op Res α} (issues : p.Issues P')
    (weaker : ∀ op, P' op → P op) : p.Issues P := by
  induction p with
  | done a => trivial
  | call op next ih => exact ⟨weaker op issues.1, fun r => ih r (issues.2 r)⟩

/-- What is left of a program issues nothing else. -/
theorem Issues.after {p q : Program Op Res α} (issues : p.Issues P) {es : List (Answered Op Res)}
    (first : p.After es q) : q.Issues P := by
  induction first with
  | nil p => exact issues
  | call r _ ih => exact ih (issues.2 r)

theorem Issues.of_mem {p : Program Op Res α} (issues : p.Issues P)
    {es : List (Answered Op Res)} {a : α} (traced : p.Traces es a) : ∀ e ∈ es, P e.1 := by
  induction traced with
  | done a => exact fun e member => by cases member
  | call r _ ih =>
    intro e member
    rcases List.mem_cons.mp member with rfl | later
    · exact issues.1
    · exact ih (issues.2 r) e later

/-- The state after the first `n` calls of a run, or after all of them. -/
def cut (h : Handler Op Res σ) : Nat → Program Op Res α → σ → σ
  | n + 1, .call op next, s => (next (h op s).1).cut h n (h op s).2
  | _, _, s => s

@[simp] theorem cut_zero (h : Handler Op Res σ) (p : Program Op Res α) (s : σ) :
    p.cut h 0 s = s := by
  cases p <;> rfl

@[simp] theorem cut_pure (h : Handler Op Res σ) (n : Nat) (a : α) (s : σ) :
    (pure a : Program Op Res α).cut h n s = s := by
  cases n <;> rfl

theorem cut_issue_bind (h : Handler Op Res σ) (n : Nat) (op : Op) (k : Res op → Program Op Res α)
    (s : σ) :
    (issue op >>= k).cut h (n + 1) s = (k (h op s).1).cut h n (h op s).2 := rfl

/-- What every call keeps holds wherever the run is cut. -/
theorem Issues.cut {I : σ → Prop} {h : Handler Op Res σ} (kept : ∀ op s, P op → I s → I (h op s).2)
    {p : Program Op Res α} (issues : p.Issues P) (n : Nat) {s : σ} (inv : I s) :
    I (p.cut h n s) := by
  induction p generalizing n s with
  | done a => cases n <;> exact inv
  | call op next ih =>
    cases n with
    | zero => exact inv
    | succ n => exact ih _ (issues.2 _) n (kept op s issues.1 inv)

/-- What every call keeps holds at the end of the run. -/
theorem Issues.run {I : σ → Prop} {h : Handler Op Res σ} (kept : ∀ op s, P op → I s → I (h op s).2)
    {p : Program Op Res α} (issues : p.Issues P) {s : σ} (inv : I s) : I (p.run h s).2 := by
  induction p generalizing s with
  | done a => exact inv
  | call op next ih => exact ih _ (issues.2 _) (kept op s issues.1 inv)

end Issues

/-- Every call the program can come to satisfies `P` as long as the answers before it are
as `G` says. -/
def IssuesWhile (G : Answered Op Res → Prop) (P : Op → Prop) : Program Op Res α → Prop
  | .done _ => True
  | .call op next => P op ∧ ∀ r, G ⟨op, r⟩ → (next r).IssuesWhile G P

section IssuesWhile

variable {G : Answered Op Res → Prop} {P P' : Op → Prop}

@[simp] theorem issuesWhile_pure (a : α) : (pure a : Program Op Res α).IssuesWhile G P := trivial

theorem issuesWhile_issue {op : Op} (holds : P op) :
    (issue op : Program Op Res (Res op)).IssuesWhile G P :=
  ⟨holds, fun _ _ => trivial⟩

theorem IssuesWhile.bind {p : Program Op Res α} {k : α → Program Op Res β}
    (first : p.IssuesWhile G P) (rest : ∀ a, (k a).IssuesWhile G P) :
    (p >>= k).IssuesWhile G P := by
  change (p.bind k).IssuesWhile G P
  induction p with
  | done a => exact rest a
  | call op next ih => exact ⟨first.1, fun r relied => ih r (first.2 r relied)⟩

theorem IssuesWhile.mono {p : Program Op Res α} (issues : p.IssuesWhile G P')
    (weaker : ∀ op, P' op → P op) :
    p.IssuesWhile G P := by
  induction p with
  | done a => trivial
  | call op next ih => exact ⟨weaker op issues.1, fun r relied => ih r (issues.2 r relied)⟩

theorem Issues.while {p : Program Op Res α} (issues : p.Issues P') (weaker : ∀ op, P' op → P op) :
    p.IssuesWhile G P := by
  induction p with
  | done a => trivial
  | call op next ih => exact ⟨weaker op issues.1, fun r _ => ih r (issues.2 r)⟩

/-- What every such call keeps is kept by a run whose answers are as relied on. -/
theorem IssuesWhile.run {I : σ → Prop} {h : Handler Op Res σ} {p : Program Op Res α}
    (issues : p.IssuesWhile G P) (relied : ∀ op s, P op → I s → G ⟨op, (h op s).1⟩)
    (kept : ∀ op s, P op → I s → I (h op s).2) {s : σ} (inv : I s) : I (p.run h s).2 := by
  induction p generalizing s with
  | done a => exact inv
  | call op next ih => exact ih _ (issues.2 _ (relied op s issues.1 inv)) (kept op s issues.1 inv)

end IssuesWhile

end Program

end Library
