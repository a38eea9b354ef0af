import Stembot.Storage.Service

/-!
# What the calls to the device come to

A program that only looks returns what it makes of the entry, or a default. A
change is made and committed, made only, or not made.
-/

namespace Stembot

open Library Program

/-- Only the faults to come differ. -/
structure Nvs.Later (w w' : Nvs) : Prop where
  same : w' = { w with faults := w'.faults }
  faultless : w.faults = [] → w'.faults = []

theorem Nvs.later_next (w : Nvs) : w.Later w.next := by
  refine ⟨rfl, fun none => ?_⟩
  simp [next, none]

theorem Nvs.Later.trans {w w' w'' : Nvs} (first : w.Later w') (second : w'.Later w'') :
    w.Later w'' := by
  refine ⟨?_, fun none => second.faultless (first.faultless none)⟩
  rw [second.same, first.same]

theorem Nvs.answer_either (op : NvsOp) (w : Nvs) :
    answer op w = perform op w.next ∨ w.faults ≠ [] ∧ answer op w = (op.refused, w.next) := by
  by_cases fails : w.Fails 0
  · refine .inr ⟨fun none => ?_, answer_of_fails fails⟩
    simp [Fails, none] at fails
  · exact .inl (answer_of_succeeds fails)

/-- The calls that look up an entry. -/
def NvsOp.Looks : NvsOp → Prop
  | .findKey _ _ | .getScalar _ _ _ | .strLen _ _ | .getStr _ _ _ | .blobLen _ _ | .getBlob _ _ _ =>
    True
  | _ => False

/-- A program that only reads, with what it returns if no call fails, and what if one does. -/
def Looks {α : Type} (w : Nvs) (p : NvsProgram α) (value refused : α) : Prop :=
  ∃ w', w.Later w' ∧
    (p.run Nvs.answer w = (value, w') ∨ w.faults ≠ [] ∧ p.run Nvs.answer w = (refused, w'))

section Readers

variable {w : Nvs} {kv : KVStore} {name : String} {α β : Type}

theorem Looks.pure {a b : α} : Looks w (pure a) a b :=
  ⟨w, ⟨rfl, id⟩, .inl rfl⟩

theorem Looks.issue (op : NvsOp) (looks : op.Looks) {value : op.Res}
    (performed : (Nvs.perform op w).1 = value) :
    Looks w (nvs op) value op.refused := by
  have answered : Nvs.perform op w.next = (value, w.next) := by
    have same : ∀ h key, w.next.entry h key = w.entry h key := fun _ _ => rfl
    rw [← performed]
    cases op with
    | flashInit | flashErase | openNs _ _ | close _ | eraseAll _ | eraseKey _ _ | commit _
    | set _ _ _ => cases looks
    | findKey _ _ | getScalar _ _ _ => rfl
    | strLen _ _ | getStr _ _ _ | blobLen _ _ | getBlob _ _ _ =>
      simp only [Nvs.perform, same]
      split <;> rfl
  refine ⟨w.next, w.later_next, ?_⟩
  rw [run_issue, ← answered]
  exact Nvs.answer_either op w

/-- A read, and what is made of it; a read that fails ends in the default. -/
theorem Looks.bind {p : NvsProgram α} {k : α → NvsProgram β} {value refused : α}
    {value' refused' : β} (first : Looks w p value refused)
    (rest : ∀ w', w.Later w' → Looks w' (k value) value' refused')
    (fails : k refused = Pure.pure refused') : Looks w (p >>= k) value' refused' := by
  obtain ⟨w', later, ran | ⟨faulty, ran⟩⟩ := first
  · obtain ⟨w'', later', ran'⟩ := rest w' later
    refine ⟨w'', later.trans later', ?_⟩
    rw [run_bind, ran]
    refine ran'.imp id fun fails => ?_
    exact ⟨fun none => fails.1 (later.faultless none), fails.2⟩
  · refine ⟨w', later, .inr ⟨faulty, ?_⟩⟩
    rw [run_bind, ran]
    change (k refused).run Nvs.answer w' = _
    rw [fails]
    rfl

theorem Looks.map {p : NvsProgram α} {f : α → β} {value refused : α}
    (looks : Looks w p value refused) :
    Looks w (p >>= fun a => Pure.pure (f a)) (f value) (f refused) :=
  looks.bind (fun _ _ => .pure) rfl

theorem Nvs.Later.opens {w' : Nvs} (later : w.Later w') (o : w.Opens kv name) :
    w'.Opens kv name := by
  rw [later.same]
  exact ⟨o.started, o.handle⟩

theorem Nvs.Later.live {w' : Nvs} (later : w.Later w') : w'.live = w.live := by
  rw [later.same]

theorem KVStore.isKey_looks (o : w.Opens kv name) (key : String) :
    Looks w (kv.isKey key) (w.live name key).isSome false := by
  simp only [isKey, o.started, Bool.not_true, Bool.false_eq_true, if_false]
  refine .issue (.findKey kv.handle key) trivial ?_
  simp [Nvs.perform, Nvs.entry, o.handle]

theorem KVStore.getScalar_looks (o : w.Opens kv name) (key : String)
    (ty : NvsType) (d : ty.Carrier) :
    Looks w (kv.getScalar key ty d) (Entries.scalar (w.live name key) ty d) d := by
  simp only [getScalar, o.started, Bool.not_true, Bool.false_eq_true, if_false]
  have read : Looks w (nvs (.getScalar kv.handle key ty))
      ((w.live name key).bind (NvsValue.asScalar ty)) none := by
    refine .issue (.getScalar kv.handle key ty) trivial ?_
    simp [Nvs.perform, Nvs.entry, o.handle]
  exact read.map

theorem KVStore.getBool_looks (o : w.Opens kv name) (key : String) (d : Bool) :
    Looks w (kv.getBool key d) (Entries.bool (w.live name key) d) d := by
  have read := (getScalar_looks o key .u8 (if d then 1 else 0)).map (f := (· != 0))
  have default : ((if d then 1 else 0 : UInt8) != 0) = d := by cases d <;> rfl
  rw [default] at read
  exact read

theorem KVStore.getBytesLength_looks (o : w.Opens kv name) (key : String) :
    Looks w (kv.getBytesLength key) (Entries.size (w.live name key)) 0 := by
  simp only [getBytesLength, o.started, Bool.not_true, Bool.false_eq_true, if_false]
  let length := (Nvs.perform (.blobLen kv.handle key) w).1
  have read : Looks w (nvs (.blobLen kv.handle key)) length none :=
    .issue (.blobLen kv.handle key) trivial rfl
  have size : length.getD 0 = Entries.size (w.live name key) := by
    simp only [length, Nvs.perform, Nvs.entry, o.handle, Option.bind_some]
    rcases w.live name key with _ | (⟨_, _⟩ | _ | _) <;> rfl
  rw [← size]
  exact read.map

theorem KVStore.getBytes_looks (o : w.Opens kv name) (key : String) {n : Nat}
    (buf : List.Vector UInt8 n) :
    Looks w (kv.getBytes key buf) (Entries.bytes (w.live name key) buf) (0, buf) := by
  by_cases empty : n = 0
  · subst empty
    have same : Entries.bytes (w.live name key) buf = (0, buf) := by
      cases w.live name key with
      | none => rfl
      | some v =>
        cases v with
        | scalar _ _ | str _ => rfl
        | blob b =>
          simp only [Entries.bytes]
          split
          · exact Prod.ext (Nat.le_zero.mp ‹_›) (Subsingleton.elim _ _)
          · rfl
    simp only [getBytes, decide_true, Bool.or_true, if_true, same]
    exact .pure
  · simp only [getBytes, o.started, Bool.not_true, Bool.false_or, decide_eq_true_eq, if_neg empty]
    let blob := (Nvs.perform (.getBlob kv.handle key n) w).1
    have read : Looks w (nvs (.getBlob kv.handle key n)) blob none :=
      .issue (.getBlob kv.handle key n) trivial rfl
    refine read.bind (fun w' _ => ?_) rfl
    have made : Entries.bytes (w.live name key) buf = blob.elim (0, buf) fun b =>
      (b.length, overwrite buf b) := by
      simp only [blob, Nvs.perform, Nvs.entry, o.handle, Option.bind_some]
      cases w.live name key with
      | none => rfl
      | some v =>
        cases v with
        | scalar _ _ | str _ => rfl
        | blob b =>
          simp only [Entries.bytes]
          split <;> rfl
    rw [made]
    cases blob with
    | none => exact .pure
    | some b => exact .pure

theorem KVStore.getString_looks (o : w.Opens kv name) (key : String) (d : Bytes) :
    Looks w (kv.getString key d) (Entries.string (w.live name key) d) d := by
  simp only [getString, o.started, Bool.not_true, Bool.false_eq_true, if_false]
  let len := (Nvs.perform (.strLen kv.handle key) w).1
  have measured : Looks w (nvs (.strLen kv.handle key)) len none :=
    .issue (.strLen kv.handle key) trivial rfl
  refine measured.bind (fun w' later => ?_) rfl
  have length : len = (w.live name key).bind fun v => v.asString.map fun s => s.length + 1 := by
    simp only [len, Nvs.perform, Nvs.entry, o.handle, Option.bind_some]
    rcases w.live name key with _ | (⟨_, _⟩ | _ | _) <;> rfl
  rw [length]
  cases entry : w.live name key with
  | none => exact .pure
  | some v =>
    cases v with
    | scalar _ _ | blob _ => exact .pure
    | str s =>
      have same : w'.live name key = some (.str s) :=
        (congrFun (congrFun later.live name) key).trans entry
      have copied : Looks w' (nvs (.getStr kv.handle key (s.1.length + 1)))
          (some (s.1 ++ [0])) none := by
        refine .issue (.getStr kv.handle key (s.1.length + 1)) trivial ?_
        simp [Nvs.perform, Nvs.entry, (later.opens o).handle, same]
      refine copied.bind (fun _ _ => ?_) rfl
      have stripped : stripTerminator ((s.1 ++ [0]) ++
          List.replicate (s.1.length + 1 - (s.1 ++ [0]).length) 0) = s.1 := by
        simp [stripTerminator_append_zero]
      simp only [stripped, Entries.string]
      exact .pure

/-- A reader returns what it makes of the entry, or the default. -/
theorem Getter.call_looks (o : w.Opens kv name) (g : Getter) (key : String) (d : g.Carrier) :
    Looks w (g.call kv key d) (g.value (w.live name key) d) d := by
  cases g with
  | char => exact KVStore.getScalar_looks o key .i8 d
  | uChar => exact KVStore.getScalar_looks o key .u8 d
  | short => exact KVStore.getScalar_looks o key .i16 d
  | uShort => exact KVStore.getScalar_looks o key .u16 d
  | int | long => exact KVStore.getScalar_looks o key .i32 d
  | uInt | uLong => exact KVStore.getScalar_looks o key .u32 d
  | long64 => exact KVStore.getScalar_looks o key .i64 d
  | uLong64 => exact KVStore.getScalar_looks o key .u64 d
  | float | double => exact (KVStore.getBytes_looks o key d).map
  | bool => exact KVStore.getBool_looks o key d
  | string => exact KVStore.getString_looks o key d

end Readers

def Nvs.contents (w : Nvs) : Contents := ⟨w.live, w.durable, w.init⟩

/-- The handles are as they were. -/
structure Nvs.Still (w w' : Nvs) : Prop where
  handles : w'.handles = w.handles
  opened : w'.opened = w.opened
  faultless : w.faults = [] → w'.faults = []

theorem Nvs.Still.trans {w w' w'' : Nvs} (first : w.Still w') (second : w'.Still w'') :
    w.Still w'' :=
  ⟨second.handles.trans first.handles, second.opened.trans first.opened,
    fun none => second.faultless (first.faultless none)⟩

theorem Nvs.Later.still {w w' : Nvs} (later : w.Later w') : w.Still w' := by
  refine ⟨?_, ?_, later.faultless⟩ <;> rw [later.same]

theorem Nvs.Later.contents {w w' : Nvs} (later : w.Later w') : w'.contents = w.contents := by
  rw [later.same]
  rfl

/-- A call that changes a namespace, unless it fails. -/
def Changes (w : Nvs) (name : String) (es : Entries) (p : NvsProgram Bool) : Prop :=
  p.run Nvs.answer w = (true, { w.next with live := Function.update w.live name es }) ∨
    w.faults ≠ [] ∧ p.run Nvs.answer w = (false, w.next)

section Writers

variable {w : Nvs} {kv : KVStore} {name : String} {α : Type}

/-- A change is committed; what the caller is told depends on how far it came. -/
theorem Changes.commit {es : Entries} {p : NvsProgram Bool} (changes : Changes w name es p)
    {h : NvsHandle} (handle : w.handles h = some (name, false)) (no : α) (told : Bool → α) :
    ∃ (o : Outcome) (w' : Nvs), (w.faults = [] → o = .whole) ∧
      (p >>= fun changed => if !changed then pure no else nvs (.commit h) >>= fun done =>
        pure (told done)).run
        Nvs.answer w = (if o = .none then no else told (o = .whole), w') ∧
      w'.contents = w.contents.rewrite name es o ∧ w.Still w' := by
  rcases changes with ran | ⟨faulty, ran⟩
  · let changed : Nvs := { w.next with live := Function.update w.live name es }
    have still : w.Still changed := ⟨rfl, rfl, w.later_next.faultless⟩
    have run : ∀ done w', Nvs.answer (.commit h) changed = (done, w') →
        (p >>= fun changed => if !changed then pure no else
          nvs (.commit h) >>= fun done => pure (told done)).run Nvs.answer w =
          (told done, w') := by
      intro done w' committed
      rw [run_bind, ran]
      exact run_issue_bind committed _
    rcases Nvs.answer_either (.commit h) changed with committed | ⟨faulty, committed⟩
    · have performed :
          Nvs.perform (.commit h) changed.next =
          (true, { changed.next with durable := changed.live }) := by
        simp [Nvs.perform, Nvs.next, changed, handle]
      refine ⟨.whole, _, fun _ => rfl, run _ _ (committed.trans performed), rfl, still.trans ?_⟩
      exact ⟨rfl, rfl, changed.later_next.faultless⟩
    · refine ⟨.part, _, fun none => ?_, run _ _ committed, rfl,
        still.trans changed.later_next.still⟩
      exact absurd (still.faultless none) faulty
  · refine ⟨.none, w.next, fun none => absurd none faulty, ?_, rfl, w.later_next.still⟩
    rw [run_bind, ran]
    rfl

theorem changes_set (handle : w.handles kv.handle = some (name, false))
    (key : String) (v : NvsValue) :
    Changes w name (Function.update (w.live name) key (some v)) (nvs (.set kv.handle key v)) := by
  rcases Nvs.answer_either (.set kv.handle key v) w with performed | ⟨faulty, refused⟩
  · refine .inl (performed.trans ?_)
    simp [Nvs.perform, Nvs.write, Nvs.next, handle]
  · exact .inr ⟨faulty, refused⟩

theorem changes_eraseAll (handle : w.handles kv.handle = some (name, false)) :
    Changes w name (fun _ => none) (nvs (.eraseAll kv.handle)) := by
  rcases Nvs.answer_either (.eraseAll kv.handle) w with performed | ⟨faulty, refused⟩
  · refine .inl (performed.trans ?_)
    simp [Nvs.perform, Nvs.write, Nvs.next, handle]
  · exact .inr ⟨faulty, refused⟩

theorem changes_eraseKey (handle : w.handles kv.handle = some (name, false)) {key : String}
    (present : (w.live name key).isSome = true) :
    Changes w name (Function.update (w.live name) key none) (nvs (.eraseKey kv.handle key)) := by
  rcases Nvs.answer_either (.eraseKey kv.handle key) w with performed | ⟨faulty, refused⟩
  · refine .inl (performed.trans ?_)
    have found : (w.next.entry kv.handle key).isSome = true := by
      simpa [Nvs.entry, Nvs.next, handle] using present
    simp only [Nvs.perform, found, if_true]
    simp [Nvs.write, Nvs.next, handle]
  · exact .inr ⟨faulty, refused⟩

end Writers

/-- The storage is prepared, or initialising it has failed before or after an erasure. -/
theorem initialise_run (w : Nvs) : ∃ err w', initialise.run Nvs.answer w = (err, w') ∧ w.Still w' ∧
    ((err = w.contents.prepared.init ∧ w'.contents = w.contents.prepared) ∨
      w.faults ≠ [] ∧ err ≠ .ok ∧ (w'.contents = w.contents ∨
        w'.contents = w.contents.prepared)) := by
  have start : ∀ {err w₁}, Nvs.answer .flashInit w = (err, w₁) → initialise.run Nvs.answer w =
      (if err = .noFreePages ∨ err = .newVersionFound
        then nvs .flashErase >>= fun _ => nvs .flashInit
        else pure err).run Nvs.answer w₁ :=
    fun answered => run_issue_bind answered _
  rcases Nvs.answer_either .flashInit w with performed | ⟨faulty, refused⟩
  · have performed : Nvs.answer .flashInit w = (w.init, w.next) := performed
    rw [start performed]
    by_cases asks : w.init = .noFreePages ∨ w.init = .newVersionFound
    · have prepared : w.contents.prepared = ⟨fun _ _ => none, fun _ _ => none, .ok⟩ := if_pos asks
      rw [if_pos asks, prepared]
      rcases Nvs.answer_either .flashErase w.next with erased | ⟨faulty, refused⟩
      · let empty : Nvs := (Nvs.perform .flashErase w.next.next).2
        have erased : Nvs.answer .flashErase w.next = ((), empty) := erased
        have still : w.Still empty := w.later_next.still.trans
          ⟨rfl, rfl, w.next.later_next.faultless⟩
        rw [run_issue_bind erased, run_issue]
        rcases Nvs.answer_either .flashInit empty with again | ⟨faulty, again⟩
        · exact ⟨.ok, empty.next, again, still.trans empty.later_next.still, .inl ⟨rfl, rfl⟩⟩
        · refine ⟨.failed, empty.next, again, still.trans empty.later_next.still,
            .inr ⟨?_, nofun, .inr rfl⟩⟩
          exact fun none => faulty (still.faultless none)
      · have faulty' : w.faults ≠ [] := fun none => faulty (w.later_next.faultless none)
        have still := w.later_next.still.trans
          (w.next.later_next.still.trans w.next.next.later_next.still)
        have refused : Nvs.answer .flashErase w.next = ((), w.next.next) := refused
        rw [run_issue_bind refused, run_issue]
        rcases Nvs.answer_either .flashInit w.next.next with again | ⟨-, again⟩
        · refine ⟨w.init, _, again, still, .inr ⟨faulty', ?_, .inl rfl⟩⟩
          rcases asks with full | version
          · simp [full]
          · simp [version]
        · exact ⟨.failed, _, again, still, .inr ⟨faulty', nofun, .inl rfl⟩⟩
    · have prepared : w.contents.prepared = w.contents := if_neg asks
      rw [if_neg asks, prepared]
      exact ⟨w.init, w.next, rfl, w.later_next.still, .inl ⟨rfl, rfl⟩⟩
  · rw [start refused]
    exact ⟨.failed, w.next, rfl, w.later_next.still, .inr ⟨faulty, nofun, .inl rfl⟩⟩

end Stembot
