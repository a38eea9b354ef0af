import Stembot.Storage.Calls

/-!
# Clients of the store

Any number of objects on one device, each used by any calls in any order. What
their clients are answered is what the service may answer.
-/

namespace Stembot

open Library Program

/-- What a client is to know of an object. -/
def KVStore.At (kv : KVStore) (w : Nvs) : Access → Prop
  | none => kv.started = false
  | some (name, readOnly) => w.Opens kv name ∧ kv.readOnly = readOnly ∧ kv.handle ≤ w.opened

/-- A call to an object leaves the handles of the others, and takes none of theirs. -/
structure KVStore.Minds (kv : KVStore) (w : Nvs) (kv' : KVStore) (w' : Nvs) : Prop where
  opened : w.opened ≤ w'.opened
  others : ∀ h ≤ w.opened, (kv.started = true → h ≠ kv.handle) → w'.handles h = w.handles h
  own : kv'.started = true → kv.started = true ∧ kv'.handle = kv.handle ∨ w.opened < kv'.handle
  faultless : w.faults = [] → w'.faults = []

/-- The call does as the service says. -/
def Operation.Does (op : Operation) (kv : KVStore) (w : Nvs) (a : Access) : Prop :=
  ∃ (o : Outcome) (kv' : KVStore) (w' : Nvs), (w.faults = [] → o = .whole) ∧
    (op.perform kv).run Nvs.answer w = (((op.apply o a w.contents).1, kv'), w') ∧
    kv'.At w' (op.apply o a w.contents).2.1 ∧ w'.contents = (op.apply o a w.contents).2.2 ∧
    kv.Minds w kv' w'

section Calls

variable {w w' : Nvs} {kv : KVStore} {a : Access}

theorem Nvs.Still.minds (still : w.Still w') : kv.Minds w kv w' :=
  ⟨still.opened.ge, fun h _ _ => congrFun still.handles h, fun started => .inl ⟨started, rfl⟩,
    still.faultless⟩

theorem Nvs.Still.at (still : w.Still w') (known : kv.At w a) : kv.At w' a := by
  cases a with
  | none => exact known
  | some a =>
    obtain ⟨opens, mode, low⟩ := known
    refine ⟨⟨opens.started, ?_⟩, mode, low.trans still.opened.ge⟩
    rw [still.handles]
    exact opens.handle

/-- A call that leaves the object as it is. -/
theorem Operation.does_of_still {op : Operation} {o : Outcome} {r : op.Res}
    {c : Contents} (known : kv.At w a) (sure : w.faults = [] → o = .whole)
    (applied : op.apply o a w.contents = (r, a, c))
    (run : (op.perform kv).run Nvs.answer w = ((r, kv), w')) (contents : w'.contents = c)
    (still : w.Still w') :
    op.Does kv w a := by
  refine ⟨o, kv, w', sure, ?_⟩
  rw [applied]
  exact ⟨run, still.at known, contents, still.minds⟩

/-- A call that does nothing. -/
theorem Operation.does_nothing {op : Operation} {r : op.Res} (known : kv.At w a)
    (applied : op.apply .whole a w.contents = (r, a, w.contents))
    (nothing : op.perform kv = pure (r, kv)) :
    op.Does kv w a := by
  refine does_of_still known (fun _ => rfl) applied ?_ rfl ⟨rfl, rfl, id⟩
  rw [nothing, run_pure]

/-- A call that only looks. -/
theorem Operation.does_of_looks {α : Type} {op : Operation} {p : NvsProgram α} {value refused : α}
    {tell : α → op.Res} (known : kv.At w a) (looks : Looks w p value refused)
    (same : op.perform kv = p >>= fun r => pure (tell r, kv))
    (whole : op.apply .whole a w.contents = (tell value, a, w.contents))
    (none : op.apply .none a w.contents = (tell refused, a, w.contents)) : op.Does kv w a := by
  obtain ⟨w', later, ran | ⟨faulty, ran⟩⟩ := looks
  · refine does_of_still known (fun _ => rfl) whole ?_ later.contents later.still
    rw [same, run_bind, ran, run_pure]
  · refine does_of_still known (fun none => absurd none faulty) none ?_ later.contents later.still
    rw [same, run_bind, ran, run_pure]

/-- A call that changes the namespace. -/
theorem Operation.does_of_changes {op : Operation} {name : String} {es : Entries}
    {p : NvsProgram Bool} (known : kv.At w (some (name, false))) (changes : Changes w name es p)
    (no : op.Res) (told : Bool → op.Res)
    (same : op.perform kv = (p >>= fun changed => if !changed then pure no else
      nvs (.commit kv.handle) >>= fun done => pure (told done)) >>= fun r => pure (r, kv))
    (applied : ∀ o, op.apply o (some (name, false)) w.contents =
      (if o = .none then no else told (o = .whole), some (name, false),
        w.contents.rewrite name es o)) :
    op.Does kv w (some (name, false)) := by
  have handle : w.handles kv.handle = some (name, false) := by
    rw [← known.2.1]
    exact known.1.handle
  obtain ⟨o, w', sure, run, contents, still⟩ := changes.commit handle no told
  refine does_of_still known sure (applied o) ?_ contents still
  rw [same, run_bind, run, run_pure]

theorem Operation.begin_does (known : kv.At w a) (name : String) (readOnly : Bool) :
    (Operation.begin name readOnly).Does kv w a := by
  cases a with
  | some access =>
    obtain ⟨held, mode⟩ := access
    refine does_nothing known rfl ?_
    simp [perform, KVStore.begin, known.1.started]
  | none =>
    have stopped : kv.started = false := known
    obtain ⟨err, w₁, initialised, still, known'⟩ := initialise_run w
    let kv₁ : KVStore := ⟨kv.handle, false, readOnly⟩
    have run : ((Operation.begin name readOnly).perform kv).run Nvs.answer w =
        (if err ≠ .ok then pure (false, kv₁)
          else kv₁.openNamespace name readOnly).run Nvs.answer w₁ := by
      rw [perform, KVStore.begin_eq, stopped, if_neg Bool.false_ne_true, run_bind, initialised]
    have closed : ∀ (o : Outcome) (c : Contents), (w.faults = [] → o = .whole) →
      err ≠ .ok → w₁.contents = c →
        (Operation.begin name readOnly).apply o none w.contents = (false, none, c) →
        (Operation.begin name readOnly).Does kv w none := by
      intro o c sure failed contents applied
      refine ⟨o, kv₁, w₁, sure, ?_⟩
      rw [applied, run, if_pos failed]
      exact ⟨rfl, rfl, contents, still.opened.ge, fun h _ _ => congrFun still.handles h,
        fun started => Bool.noConfusion started, still.faultless⟩
    rcases known' with ⟨rfl, contents⟩ | ⟨faulty, failed, same | same⟩
    · by_cases ok : w.contents.prepared.init = .ok
      · rw [if_neg (not_not.mpr ok)] at run
        rcases Nvs.answer_either (.openNs name readOnly) w₁ with opened | ⟨faulty, refused⟩
        · let handle := w₁.opened + 1
          let kv₂ : KVStore := ⟨handle, true, readOnly⟩
          let w₂ : Nvs := { w₁.next with
            handles := Function.update w₁.handles handle (some (name, readOnly)), opened := handle }
          have opened : Nvs.answer (.openNs name readOnly) w₁ = (some handle, w₂) := opened
          have ran : (kv₁.openNamespace name readOnly).run Nvs.answer w₁ = ((true, kv₂), w₂) := by
            rw [KVStore.openNamespace, run_issue_bind opened]
            rfl
          refine ⟨.whole, kv₂, w₂, fun _ => rfl, ?_⟩
          have applied : (Operation.begin name readOnly).apply .whole none w.contents =
              (true, some (name, readOnly), w.contents.prepared) := if_pos ok
          rw [applied, run, ran]
          have above : w.opened < handle := Nat.lt_succ_of_le still.opened.ge
          refine ⟨rfl, ⟨⟨rfl, Function.update_self _ _ _⟩, rfl, le_rfl⟩, contents,
            above.le, ?_, ?_, ?_⟩
          · intro h low _
            have other : h ≠ handle := (low.trans_lt above).ne
            exact (Function.update_of_ne other _ _).trans (congrFun still.handles h)
          · exact fun _ => .inr above
          · intro none
            exact w₁.later_next.faultless (still.faultless none)
        · have refused : Nvs.answer (.openNs name readOnly) w₁ = (none, w₁.next) := refused
          have ran : (kv₁.openNamespace name readOnly).run Nvs.answer w₁ =
              ((false, kv₁), w₁.next) := by
            rw [KVStore.openNamespace, run_issue_bind refused]
            rfl
          refine ⟨.part, kv₁, w₁.next, fun none => absurd (still.faultless none) faulty, ?_⟩
          have applied : (Operation.begin name readOnly).apply .part none w.contents =
              (false, none, w.contents.prepared) := rfl
          have still' := still.trans w₁.later_next.still
          rw [applied, run, ran]
          exact ⟨rfl, rfl, contents, still'.opened.ge, fun h _ _ => congrFun still'.handles h,
            fun started => Bool.noConfusion started, still'.faultless⟩
      · exact closed .whole _ (fun _ => rfl) ok contents (if_neg ok)
    · exact closed .none _ (fun none => absurd none faulty) failed same rfl
    · exact closed .part _ (fun none => absurd none faulty) failed same rfl

theorem Operation.close_does (known : kv.At w a) : Operation.close.Does kv w a := by
  cases a with
  | none =>
    have stopped : kv.started = false := known
    refine does_nothing known rfl ?_
    simp [perform, KVStore.close, stopped]
  | some access =>
    obtain ⟨name, readOnly⟩ := access
    obtain ⟨opens, -, low⟩ := known
    let kv' : KVStore := { kv with handle := 0, started := false }
    have run : ∀ w', (Nvs.answer (.close kv.handle) w).2 = w' →
        (Operation.close.perform kv).run Nvs.answer w = (((), kv'), w') := by
      rintro _ rfl
      simp [perform, KVStore.close, opens.started, kv']
    rcases Nvs.answer_either (.close kv.handle) w with closed | ⟨-, refused⟩
    · refine ⟨.whole, kv', _, fun _ => rfl, run _ (congrArg Prod.snd closed), rfl, rfl, le_rfl, ?_,
        fun started => Bool.noConfusion started, w.later_next.faultless⟩
      intro h _ other
      exact Function.update_of_ne (other opens.started) _ _
    · exact ⟨.whole, kv', _, fun _ => rfl, run _ (congrArg Prod.snd refused), rfl, rfl,
        le_rfl, fun _ _ _ => rfl, fun started => Bool.noConfusion started, w.later_next.faultless⟩

theorem Getter.call_closed (stopped : kv.started = false) (g : Getter)
    (key : String) (d : g.Carrier) :
    g.call kv key d = pure d := by
  cases g with
  | bool =>
    have same : ((if d then 1 else 0 : UInt8) != 0) = d := by cases d <;> rfl
    simp [call, KVStore.getBool, KVStore.getUChar, KVStore.getScalar, stopped, same]
  | float | double => simp [call, KVStore.getFloat, KVStore.getDouble, KVStore.getBytes, stopped]
  | string => simp [call, KVStore.getString, stopped]
  | char | uChar | short | uShort | int | uInt | long | uLong | long64 | uLong64 =>
    simp [call, KVStore.getChar, KVStore.getUChar, KVStore.getShort, KVStore.getUShort,
      KVStore.getInt, KVStore.getUInt, KVStore.getLong, KVStore.getULong, KVStore.getLong64,
      KVStore.getULong64, KVStore.getScalar, stopped]

theorem Putter.call_guarded (guarded : (!kv.started || kv.readOnly) = true)
    (p : Putter) (key : String) :
    p.call kv key = pure 0 := by
  rw [p.call_eq]
  cases p.stored with
  | none => rfl
  | some v => simp only [KVStore.put, guarded, if_true]

/-- A call on an object that is not open. -/
theorem Operation.does_closed (known : kv.At w none) (op : Operation) : op.Does kv w none := by
  have stopped : kv.started = false := known
  have guarded : (!kv.started || kv.readOnly) = true := by simp [stopped]
  cases op with
  | begin name readOnly => exact begin_does known name readOnly
  | close => exact close_does known
  | clear => exact does_nothing known rfl (by simp [perform, KVStore.clear, stopped])
  | remove key => exact does_nothing known rfl (by simp [perform, KVStore.remove, stopped])
  | isKey key => exact does_nothing known rfl (by simp [perform, KVStore.isKey, stopped])
  | put p key => exact does_nothing known rfl (by simp [perform, p.call_guarded guarded])
  | get g key d => exact does_nothing known rfl (by simp [perform, g.call_closed stopped])
  | getBytesLength key =>
    exact does_nothing known rfl (by simp [perform, KVStore.getBytesLength, stopped])
  | getBytes key n buf =>
    cases buf with
    | none => exact does_nothing known rfl rfl
    | some buf => exact does_nothing known rfl (by simp [perform, KVStore.getBytes, stopped])

theorem Operation.remove_does {name key : String} (known : kv.At w (some (name, false))) :
    (Operation.remove key).Does kv w (some (name, false)) := by
  have opens : w.Opens kv name := known.1
  have mode : kv.readOnly = false := known.2.1
  have handle := opens.handle
  rw [mode] at handle
  cases found : (w.live name key).isSome with
  | true =>
    have present : (w.live name key).isNone = false := by simpa using found
    refine does_of_changes known (changes_eraseKey handle found) false id ?_ fun o => ?_
    · simp [perform, KVStore.remove, opens.started, mode]
    · simp only [apply, applyOpen, Nvs.contents, present, Bool.or_self,
        Bool.false_eq_true, if_false]
      cases o <;> rfl
  | false =>
    have absent : w.live name key = none := by simpa using found
    have answered : Nvs.answer (.eraseKey kv.handle key) w = (false, w.next) := by
      have missing : (w.next.entry kv.handle key).isSome = false := by
        simp [Nvs.entry, Nvs.next, handle, absent]
      rcases Nvs.answer_either (.eraseKey kv.handle key) w with performed | ⟨-, refused⟩
      · rw [performed]
        simp only [Nvs.perform, missing, Bool.false_eq_true, if_false]
      · exact refused
    refine does_of_still (o := .whole) (r := false) known (fun _ => rfl) ?_ ?_ w.later_next.contents
      w.later_next.still
    · simp [apply, applyOpen, Nvs.contents, absent]
    · simp [perform, KVStore.remove, opens.started, mode, answered]

/-- A call on an object that is open. -/
theorem Operation.does_open {name : String} {readOnly : Bool}
    (known : kv.At w (some (name, readOnly))) (op : Operation) :
    op.Does kv w (some (name, readOnly)) := by
  have opens : w.Opens kv name := known.1
  have mode : kv.readOnly = readOnly := known.2.1
  cases op with
  | begin name readOnly => exact begin_does known name readOnly
  | close => exact close_does known
  | isKey key =>
    refine does_of_looks known (KVStore.isKey_looks opens key) rfl ?_ ?_
    · simp [apply, applyOpen, Nvs.contents]
    · simp [apply, applyOpen]
  | get g key d => exact does_of_looks known (g.call_looks opens key d) rfl rfl rfl
  | getBytesLength key =>
    exact does_of_looks known (KVStore.getBytesLength_looks opens key) rfl rfl rfl
  | getBytes key n buf =>
    cases buf with
    | none => exact does_nothing known rfl rfl
    | some buf => exact does_of_looks known (KVStore.getBytes_looks opens key buf) rfl rfl rfl
  | clear =>
    cases readOnly with
    | true => exact does_nothing known rfl (by simp [perform, KVStore.clear, mode])
    | false =>
      have handle := opens.handle
      rw [mode] at handle
      refine does_of_changes known (changes_eraseAll handle) false id ?_ fun o => ?_
      · simp [perform, KVStore.clear, opens.started, mode]
      · cases o <;> rfl
  | remove key =>
    cases readOnly with
    | true => exact does_nothing known rfl (by simp [perform, KVStore.remove, mode])
    | false => exact remove_does known
  | put p key =>
    cases readOnly with
    | true => exact does_nothing known rfl (by simp [perform, p.call_guarded, mode])
    | false =>
      cases stored : p.stored with
      | none =>
        have applied : (Operation.put p key).apply .whole (some (name, false)) w.contents =
            (0, some (name, false), w.contents) := by
          simp [apply, applyOpen, stored]
        exact does_nothing known applied (by simp [perform, p.call_eq, stored])
      | some v =>
        have handle := opens.handle
        rw [mode] at handle
        refine does_of_changes known (changes_set handle key v) 0 (fun _ => p.count) ?_ fun o => ?_
        · simp [perform, p.call_eq, stored, KVStore.put, opens.started, mode]
        · simp only [apply, applyOpen, stored]
          cases o <;> rfl

end Calls

section Stores

variable {ι : Type} [DecidableEq ι]

/-- What the clients see is what the device holds, and no two objects have a handle in common. -/
structure Stores.Shows (sure : Prop) (s : Stores ι) (t : Storage ι) : Prop where
  contents : s.device.contents = t.contents
  known : ∀ i, (s.objects i).At s.device (t.access i)
  apart : ∀ i j, i ≠ j → (s.objects i).started = true → (s.objects j).started = true →
    (s.objects i).handle ≠ (s.objects j).handle
  faultless : sure → s.device.faults = []

/-- An object is none of the business of the others. -/
theorem KVStore.At.minded {kv kv' other : KVStore} {w w' : Nvs} {a : Access}
    (minds : kv.Minds w kv' w') (known : other.At w a)
    (apart : kv.started = true → other.started = true → other.handle ≠ kv.handle) :
    other.At w' a := by
  cases a with
  | none => exact known
  | some access =>
    obtain ⟨opens, mode, low⟩ := known
    refine ⟨⟨opens.started, ?_⟩, mode, low.trans minds.opened⟩
    rw [minds.others other.handle low fun started => apart started opens.started]
    exact opens.handle

theorem KVStore.At.low {kv : KVStore} {w : Nvs} {a : Access} (known : kv.At w a)
    (started : kv.started = true) :
    kv.handle ≤ w.opened := by
  cases a with
  | none => cases started.symm.trans known
  | some access => exact known.2.2

/-- The objects on their device do as the service says. -/
theorem Stores.serve_refines (sure : Prop) :
    Refines (Stores.serve (ι := ι)) (Stores.Shows sure) (Storage.service sure) := by
  intro call s t shows
  obtain ⟨i, op⟩ := call
  have does : op.Does (s.objects i) s.device (t.access i) := by
    have known := shows.known i
    cases access : t.access i with
    | none => exact op.does_closed (access ▸ known)
    | some a => exact op.does_open (access ▸ known)
  obtain ⟨o, kv, w, whole, run, known, contents, minds⟩ := does
  rw [shows.contents] at run known contents
  have served : serve (i, op) s =
      ((op.apply o (t.access i) t.contents).1, ⟨Function.update s.objects i kv, w⟩) := by
    simp only [serve, run]
  -- the handle of the object is its own, whether it is an old one or new
  have foreign : ∀ j, j ≠ i → (s.objects j).started = true → kv.started = true →
      (s.objects j).handle ≠ kv.handle := by
    intro j other startedj started
    rcases minds.own started with ⟨startedi, same⟩ | above
    · rw [same]
      exact shows.apart j i other startedj startedi
    · exact ((shows.known j).low startedj |>.trans_lt above).ne
  rw [served]
  refine ⟨(t.apply o (i, op)).2, ⟨o, fun certain => whole (shows.faultless certain), rfl⟩,
    contents, ?_, ?_, ?_⟩
  · intro j
    by_cases other : j = i
    · subst other
      simp only [Storage.apply, Function.update_self]
      exact known
    · simp only [Storage.apply, Function.update_of_ne other]
      exact (shows.known j).minded minds fun startedi startedj =>
        shows.apart j i other startedj startedi
  · intro j k apart startedj startedk
    by_cases here : j = i
    · subst here
      simp only [Function.update_self, Function.update_of_ne apart.symm] at startedj startedk ⊢
      exact (foreign k apart.symm startedk startedj).symm
    · by_cases there : k = i
      · subst there
        simp only [Function.update_self, Function.update_of_ne apart] at startedj startedk ⊢
        exact foreign j apart startedj startedk
      · simp only [Function.update_of_ne here, Function.update_of_ne there] at startedj startedk ⊢
        exact shows.apart j k apart startedj startedk
  · exact fun certain => minds.faultless (shows.faultless certain)

/-- The storage with no object open. -/
def Nvs.shut (ι : Type) (w : Nvs) : Storage ι := ⟨fun _ => none, w.contents⟩

/-- Objects that have not been begun. -/
def Nvs.fresh (ι : Type) (w : Nvs) : Stores ι := ⟨fun _ => {}, w⟩

omit [DecidableEq ι] in
theorem Nvs.fresh_shows (w : Nvs) : (w.fresh ι).Shows (w.faults = []) (w.shut ι) :=
  ⟨rfl, fun _ => rfl, nofun, id⟩

/-- Whatever the clients of any number of objects do, and whichever calls of the device fail, they
are served as by the service, and what it holds in the end is what the device holds; on a device
that meets no fault each call takes effect as a whole. -/
theorem store_refines {α : Type} (p : StoreProgram ι α) (w : Nvs) :
    let ran := p.run Stores.serve (w.fresh ι)
    ∃ t, p.Served (Storage.service (w.faults = [])) (w.shut ι) ran.1 t ∧
      t.contents = ran.2.device.contents ∧ ∀ i, (ran.2.objects i).At ran.2.device (t.access i) := by
  obtain ⟨t, served, shows⟩ := (Stores.serve_refines (w.faults = [])).run p w.fresh_shows
  exact ⟨t, served, shows.contents.symm, shows.known⟩

/-- Clients that never begin a namespace for writing leave it as it is, where it has been committed and
the storage does not ask to be erased: whatever they do to the others at the same time, and whichever
calls of the device fail. -/
theorem namespaces_apart {α : Type} {p : StoreProgram ι α} {name : String}
    (elsewhere : p.Issues fun call => call.2 ≠ .begin name false) {w : Nvs}
    (committed : w.durable name = w.live name)
    (usable : w.init ≠ .noFreePages ∧ w.init ≠ .newVersionFound) :
    let after := (p.run Stores.serve (w.fresh ι)).2.device
    after.live name = w.live name ∧ after.durable name = w.live name := by
  intro after
  obtain ⟨t, served, shows⟩ := (Stores.serve_refines (w.faults = [])).run p w.fresh_shows
  have kept := served.keeps (I := fun t : Storage ι => t.contents.Keeps name (w.live name) ∧
    ∀ i, t.access i ≠ some (name, false)) ?_ elsewhere ⟨⟨rfl, committed, usable⟩, nofun⟩
  · have same : after.contents = t.contents := shows.contents
    have keeps := kept.1
    rw [← same] at keeps
    exact ⟨keeps.live, keeps.durable⟩
  · intro call t r t' begins step inv
    obtain ⟨i, op⟩ := call
    obtain ⟨o, -, applied⟩ := step
    obtain ⟨keeps, nobody⟩ := inv
    obtain ⟨keeps', closed⟩ := op.apply_keeps keeps (nobody i) begins o
    obtain rfl := (Prod.mk.inj applied).2
    refine ⟨keeps', fun j => ?_⟩
    by_cases here : j = i
    · subst here
      exact (Function.update_self _ _ _).trans_ne closed
    · exact (Function.update_of_ne here _ _).trans_ne (nobody j)

end Stores

/-- A client of two objects, which writes to one namespace and reads another. -/
def sampleClient : StoreProgram Bool (Option Bytes) := do
  let opened ← Program.issue (true, .begin "net" false)
  let _ ← Program.issue (true, .put (.stdString (bytes "a")) "name")
  let _ ← Program.issue (false, .begin "app" true)
  if opened then return some (← Program.issue (false, .get .string "name" [])) else return none

def sampleServed : Option Bytes × Stores Bool :=
  sampleClient.run Stores.serve (sampleStore.2.fresh Bool)

/-- Both objects are open, and the second finds no entry of the name in its own namespace. -/
theorem store_refines_sample : sampleServed.1 = some [] ∧
    ∃ t, sampleClient.Served (Storage.service True) (sampleStore.2.shut Bool) (some []) t ∧
      t.contents = sampleServed.2.device.contents ∧ ∀ i, (t.access i).isSome := by
  have result : sampleServed.1 = some [] := by decide +kernel
  have started : ∀ i, (sampleServed.2.objects i).started = true := by decide +kernel
  have faultless : (sampleStore.2.faults = []) = True := eq_true rfl
  refine ⟨result, ?_⟩
  rw [sampleServed] at result started ⊢
  obtain ⟨t, served, contents, known⟩ := store_refines sampleClient sampleStore.2
  rw [faultless, result] at served
  refine ⟨t, served, contents, fun i => ?_⟩
  have is := known i
  cases access : t.access i with
  | none =>
    rw [access] at is
    exact absurd (started i) (Bool.eq_false_iff.mp is)
  | some _ => rfl

theorem namespaces_apart_sample :
    let w := { sampleStore.2 with faults := [false, false, true] }
    let after := (sampleClient.run Stores.serve (w.fresh Bool)).2.device
    after.live "app" = w.live "app" ∧ after.durable "app" = w.live "app" := by
  intro w
  have elsewhere : sampleClient.Issues fun call => call.2 ≠ .begin "app" false := by
    refine Issues.bind (issues_issue.mpr (by simp)) fun opened => ?_
    refine Issues.bind (issues_issue.mpr nofun) fun _ => ?_
    refine Issues.bind (issues_issue.mpr (by simp)) fun _ => ?_
    cases opened with
    | true => exact Issues.bind (issues_issue.mpr nofun) fun _ => issues_pure _
    | false => exact issues_pure _
  exact namespaces_apart elsewhere rfl ⟨nofun, nofun⟩

end Stembot
