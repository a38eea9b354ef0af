import Stembot.Models.ReadFailures

/-!
# Which call a setting comes from

The storage may change between the calls of a load. A setting that was read well
is still that of the entries as they were at one of these calls, except for what
follows a string's terminator. Where no call fails of itself, any other setting is
a string that has grown between its two calls.
-/

namespace Stembot

open Library Program

/-- Strings are compared up to a zero. -/
def Setting.Alike : (s : Setting) → s.Carrier → s.Carrier → Prop
  | .peerUrl, v, v' | .wifiSSID, v, v' | .wifiPassword, v, v' => cstr v = cstr v'
  | .agtuuid, v, v' | .key, v, v' | .debug, v, v' | .polling, v, v' => v = v'

theorem Setting.alike_of_eq {s : Setting} {v v' : s.Carrier} (same : v = v') : s.Alike v v' := by
  subst same
  cases s <;> rfl

/-- The settings that are read as strings. -/
def Setting.Text : Setting → Prop
  | .agtuuid | .peerUrl | .wifiSSID | .wifiPassword => True
  | .key | .debug | .polling => False

/-- A string was found, and when it was read it did not fit. -/
def Grown (key : String) (calls : List NvsCall) : Prop :=
  ∃ h len, ⟨.strLen h key, some len⟩ ∈ calls ∧ ⟨.getStr h key len, none⟩ ∈ calls

/-- What is read under one key is, in the sense of `R`, that of any entries which one of the calls
was answered from, and it is the default if a call failed. Where no call failed of itself, it is
either such a value or `torn`. -/
structure Sourced {α : Type} (started : Bool) (key : String) (R : Entries → α → Prop)
    (default r : α) (torn : Prop) (calls : List NvsCall) : Prop where
  only : ∀ e ∈ calls, e.1.readKey = some key
  well : WellRead calls → ∃ e ∈ calls, ∀ es, AnswersFrom es e → R es r
  badly : ¬WellRead calls → r = default
  heard : started = true → (∃ e ∈ calls, ∀ es, Heard es e → R es r) ∨ torn

section Sourced

variable {α β : Type} {started : Bool} {key : String} {R : Entries → α → Prop}
  {R' : Entries → β → Prop} {default r : α} {torn : Prop} {calls : List NvsCall} {kv : KVStore}

theorem Heard.answersFrom {es : Entries} {e : NvsCall} (heard : Heard es e) : AnswersFrom es e :=
  fun reads => .inr (heard reads)

theorem Sourced.map (sourced : Sourced started key R default r torn calls) (f : α → β)
    (carried : ∀ es r, R es r → R' es (f r)) :
    Sourced started key R' (f default) (f r) torn calls where
  only := sourced.only
  well read := by
    obtain ⟨e, member, source⟩ := sourced.well read
    exact ⟨e, member, fun es answers => carried es r (source es answers)⟩
  badly unread := congrArg f (sourced.badly unread)
  heard opened := by
    refine (sourced.heard opened).imp_left ?_
    rintro ⟨e, member, source⟩
    exact ⟨e, member, fun es answers => carried es r (source es answers)⟩

/-- Nothing is asked of a store that is not open. -/
theorem Sourced.nothing (stopped : started = false) :
    Sourced started key R default default torn [] :=
  ⟨nofun, fun well => absurd rfl well.1, fun _ => rfl, fun opened => by
    cases opened.symm.trans stopped⟩

theorem Sourced.refused (only : ∀ e ∈ calls, e.1.readKey = some key) {e : NvsCall}
    (member : e ∈ calls) (refused : e.2 = e.1.refused)
    (heard : (∀ es, Heard es e → R es default) ∨ torn) :
    Sourced started key R default default torn calls where
  only := only
  well well := absurd refused (well.2 e member)
  badly _ := rfl
  heard _ := heard.imp_left fun source => ⟨e, member, source⟩

theorem Sourced.value (only : ∀ e ∈ calls, e.1.readKey = some key) (well : WellRead calls)
    {e : NvsCall} (member : e ∈ calls) (source : ∀ es, AnswersFrom es e → R es r) :
    Sourced started key R default r torn calls where
  only := only
  well _ := ⟨e, member, source⟩
  badly badly := absurd well badly
  heard _ := .inl ⟨e, member, fun es heard => source es heard.answersFrom⟩

theorem getScalar_sourced {ty : NvsType} {d r : ty.Carrier}
    (traced : (kv.getScalar key ty d).Traces calls r) :
    Sourced kv.started key (fun es r => r = Entries.scalar (es key) ty d) d r False calls := by
  cases started : kv.started with
  | false =>
    simp only [KVStore.getScalar, started, Bool.not_false, if_true] at traced
    obtain ⟨rfl, rfl⟩ := traces_pure.mp traced
    exact .nothing rfl
  | true =>
    simp only [KVStore.getScalar, started, Bool.not_true, Bool.false_eq_true, if_false] at traced
    obtain ⟨answer, _, _, asked, returned, rfl⟩ := traces_bind.mp traced
    obtain rfl := traces_issue.mp asked
    obtain ⟨rfl, rfl⟩ := traces_pure.mp returned
    have only : ∀ e ∈ [(⟨.getScalar kv.handle key ty, answer⟩ : NvsCall)] ++ [],
        e.1.readKey = some key := by
      simp [NvsOp.readKey]
    have found : ∀ es, answer = (Nvs.perform (.getScalar kv.handle key ty) (holding es)).1 →
        answer.getD d = Entries.scalar (es key) ty d := by
      rintro es rfl
      rfl
    cases answer with
    | none =>
      refine .refused only List.mem_cons_self rfl (.inl fun es heard => ?_)
      exact found es (heard (Option.some_ne_none _))
    | some v =>
      refine .value only ⟨List.cons_ne_nil _ _, by simp [NvsOp.refused]⟩ List.mem_cons_self
        fun es answers => found es ?_
      exact answers.answer (Option.some_ne_none _) (Option.some_ne_none _)

theorem getBool_sourced {d r : Bool} (traced : (kv.getBool key d).Traces calls r) :
    Sourced kv.started key (fun es r => r = Entries.bool (es key) d) d r False calls := by
  obtain ⟨v, read, rfl⟩ := traces_map.mp traced
  have sourced : Sourced kv.started key (fun es r => r = Entries.bool (es key) d) _ (v != 0) False
      calls :=
    (getScalar_sourced read).map (· != 0) fun es v same => congrArg (· != 0) same
  have default : ((if d then 1 else 0 : UInt8) != 0) = d := by cases d <;> rfl
  rw [default] at sourced
  exact sourced

/-- A string that is asked for where there is none. -/
theorem strLen_none {es : Entries} {h : NvsHandle} (heard : Heard es ⟨.strLen h key, none⟩)
    (d : Bytes) : Entries.string (es key) d = d := by
  have found := heard (Option.some_ne_none _)
  simp only [Nvs.perform, Nvs.entry, holding, Option.bind_some] at found
  split at found
  · cases found
  · rename_i other
    unfold Entries.string
    split
    · rename_i t stored
      exact absurd stored (other t)
    · rfl

theorem getString_sourced {d r : Bytes} (traced : (kv.getString key d).Traces calls r) :
    Sourced kv.started key (fun es r => cstr r = cstr (Entries.string (es key) d)) d r
      (Grown key calls) calls := by
  cases started : kv.started with
  | false =>
    simp only [KVStore.getString, started, Bool.not_false, if_true] at traced
    obtain ⟨rfl, rfl⟩ := traces_pure.mp traced
    exact .nothing rfl
  | true =>
    rcases getString_cases traced with
      ⟨rfl, rfl⟩ | ⟨rfl, rfl⟩ | ⟨len, rfl, rfl⟩ | ⟨len, s, rfl, rfl⟩
    · simp only [KVStore.getString, started, Bool.not_true, Bool.false_eq_true, if_false] at traced
      cases traced
    · refine .refused (by simp [NvsOp.readKey]) List.mem_cons_self rfl (.inl fun es heard => ?_)
      rw [strLen_none heard]
    · exact .refused (by simp [NvsOp.readKey]) (List.mem_cons_of_mem _ List.mem_cons_self) rfl
        (.inr ⟨kv.handle, len, List.mem_cons_self, List.mem_cons_of_mem _ List.mem_cons_self⟩)
    · refine .value (by simp [NvsOp.readKey]) ⟨List.cons_ne_nil _ _, by simp [NvsOp.refused]⟩
        (List.mem_cons_of_mem _ List.mem_cons_self) fun es answers => ?_
      have found := answers.answer (Option.some_ne_none _) (Option.some_ne_none _)
      simp only [Nvs.perform, Nvs.entry, holding, Option.bind_some] at found
      split at found
      · rename_i t stored
        split at found
        · obtain rfl := Option.some.inj found
          -- A buffer that was made for a longer string goes on with zeros.
          rw [cstr_stripTerminator, cstr_append_zeros, cstr_append_zero t.2, stored]
          exact (cstr_val t).symm
        · cases found
      · cases found

theorem getBytes_sourced {buf : Key} {r : Nat × Key}
    (traced : (kv.getBytes key buf).Traces calls r) :
    Sourced kv.started key (fun es r => r = Entries.bytes (es key) buf) (0, buf) r False calls := by
  cases started : kv.started with
  | false =>
    simp only [KVStore.getBytes, started, Bool.not_false, Bool.true_or, if_true] at traced
    obtain ⟨rfl, rfl⟩ := traces_pure.mp traced
    exact .nothing rfl
  | true =>
    simp only [KVStore.getBytes, started, Bool.not_true, Bool.false_or, decide_eq_true_eq,
      if_neg (show ¬32 = 0 by decide)] at traced
    obtain ⟨read, _, _, asked, ended, rfl⟩ := traces_bind.mp traced
    obtain rfl := traces_issue.mp asked
    have found : ∀ es, read = (Nvs.perform (.getBlob kv.handle key 32) (holding es)).1 →
        (read.elim (0, buf) fun b => (b.length, overwrite buf b)) = Entries.bytes (es key) buf := by
      rintro es answered
      simp only [Nvs.perform, Nvs.entry, holding, Option.bind_some] at answered
      split at answered
      · rename_i b stored
        rw [answered, stored, Entries.bytes]
        split <;> rfl
      · rename_i other
        rw [answered]
        unfold Entries.bytes
        split
        · rename_i b stored
          exact absurd stored (other b)
        · rfl
    cases read with
    | none =>
      obtain ⟨rfl, rfl⟩ := traces_pure.mp ended
      refine .refused (by simp [NvsOp.readKey]) List.mem_cons_self rfl (.inl fun es heard => ?_)
      exact found es (heard (Option.some_ne_none _))
    | some read =>
      obtain ⟨rfl, rfl⟩ := traces_pure.mp ended
      refine .value (by simp [NvsOp.readKey]) ⟨List.cons_ne_nil _ _, by simp [NvsOp.refused]⟩
        List.mem_cons_self fun es answers => found es ?_
      exact answers.answer (Option.some_ne_none _) (Option.some_ne_none _)

end Sourced

section Load

variable {sha256 : Sha256} {c c' : Config} {calls : List NvsCall}

/-- The setting is a string, which has grown between two calls. -/
def Setting.Torn (s : Setting) (calls : List NvsCall) : Prop :=
  match s with
  | .agtuuid | .peerUrl | .wifiSSID | .wifiPassword => Grown s.name calls
  | .key | .debug | .polling => False

theorem Setting.Torn.mono {s : Setting} {calls calls' : List NvsCall} (torn : s.Torn calls)
    (inside : calls ⊆ calls') : s.Torn calls' := by
  cases s with
  | agtuuid | peerUrl | wifiSSID | wifiPassword =>
    obtain ⟨h, len, measured, read⟩ := torn
    exact ⟨h, len, inside measured, inside read⟩
  | key | debug | polling => exact torn

theorem Setting.Torn.text {s : Setting} {calls : List NvsCall} (torn : s.Torn calls) : s.Text := by
  cases s with
  | agtuuid | peerUrl | wifiSSID | wifiPassword => trivial
  | key | debug | polling => exact torn

theorem Setting.Torn.unread {s : Setting} {calls : List NvsCall} (torn : s.Torn calls) :
    ¬s.ReadWell calls := by
  intro well
  have refused : ∀ h len, ⟨.getStr h s.name len, none⟩ ∈ calls → False := by
    intro h len member
    have own : (⟨.getStr h s.name len, none⟩ : NvsCall) ∈
        calls.filter fun e => e.1.readKey = some s.name :=
      List.mem_filter.mpr ⟨member, decide_eq_true rfl⟩
    exact well.2 _ own rfl
  cases s with
  | agtuuid | peerUrl | wifiSSID | wifiPassword =>
    obtain ⟨h, len, -, read⟩ := torn
    exact refused h len read
  | key | debug | polling => exact torn

/-- A setting is like the one that is stored, or it is the default. -/
abbrev Setting.Sourced (sha256 : Sha256) (started : Bool) (s : Setting) (v : s.Carrier)
    (calls : List NvsCall) : Prop :=
  Stembot.Sourced started s.name (fun es v => s.Alike v (s.stored sha256 es)) (s.fallback sha256) v
    (s.Torn calls) calls

theorem loadOne_sourced (s : Setting) (traced : (c.loadOne sha256 s).Traces calls c') :
    ∃ v, c' = c.assign s v ∧ s.Sourced sha256 c.kvstore.started v calls := by
  cases s with
  | agtuuid =>
    obtain ⟨v, read, rfl⟩ := traces_map.mp traced
    refine ⟨_, rfl, ?_⟩
    rw [strncpySizeof_eq c.agtuuid (.replicate 36 0)]
    exact (getString_sourced read).map (strncpySizeof (.replicate 36 0)) fun es v same =>
      strncpySizeof_congr same
  | key =>
    obtain ⟨⟨keyLen, key⟩, read, rfl⟩ := traces_map.mp traced
    refine ⟨_, rfl, (getBytes_sourced read).map
      (fun r => if r.1 ≠ 32 then defaultKey sha256 else r.2) ?_⟩
    rintro es _ rfl
    exact Config.loadedKey_eq sha256 (es "key") c.key
  | peerUrl | wifiSSID | wifiPassword =>
    obtain ⟨v, read, rfl⟩ := traces_map.mp traced
    exact ⟨v, rfl, getString_sourced read⟩
  | debug | polling =>
    obtain ⟨v, read, rfl⟩ := traces_map.mp traced
    exact ⟨v, rfl, getBool_sourced read⟩

/-- Reads made one behind the other. -/
theorem loadAll_sourced {todo : List Setting} (nodup : todo.Nodup)
    (traced : (todo.foldlM (Config.loadOne sha256) c).Traces calls c') :
    (∀ e ∈ calls, ∃ s ∈ todo, e.1.readKey = some s.name) ∧
    (∀ s, s ∉ todo → c'.get s = c.get s) ∧
    (c'.kvstore = c.kvstore) ∧
    ∀ s ∈ todo, s.Sourced sha256 c.kvstore.started (c'.get s)
      (calls.filter fun e => e.1.readKey = some s.name) := by
  induction todo generalizing c calls with
  | nil =>
    obtain ⟨rfl, rfl⟩ := traces_pure.mp traced
    exact ⟨nofun, fun _ _ => rfl, rfl, nofun⟩
  | cons s todo ih =>
    rw [List.foldlM_cons] at traced
    obtain ⟨next, first, rest, one, later, rfl⟩ := traces_bind.mp traced
    obtain ⟨fresh, nodup⟩ := List.nodup_cons.mp nodup
    obtain ⟨v, rfl, sourced⟩ := loadOne_sourced s one
    obtain ⟨only, kept, store, loaded⟩ := ih nodup later
    rw [Config.kvstore_assign] at store loaded
    refine ⟨?_, ?_, store, ?_⟩
    · intro e member
      rcases List.mem_append.mp member with here | there
      · exact ⟨s, List.mem_cons_self, sourced.only e here⟩
      · obtain ⟨t, inside, reads⟩ := only e there
        exact ⟨t, List.mem_cons_of_mem _ inside, reads⟩
    · intro t outside
      obtain ⟨ne, outside⟩ := not_or.mp (List.mem_cons.not.mp outside)
      rw [kept t outside, Config.get_assign, Function.update_of_ne ne]
    · intro t inside
      rw [List.filter_append]
      rcases List.mem_cons.mp inside with rfl | inside
      · have own : first.filter (fun e => e.1.readKey = some t.name) = first := by
          simpa [List.filter_eq_self] using sourced.only
        have others : rest.filter (fun e => e.1.readKey = some t.name) = [] := by
          simp only [List.filter_eq_nil_iff, decide_eq_true_eq]
          intro e member same
          obtain ⟨u, inside, reads⟩ := only e member
          have named : u = t := Setting.name_injective (Option.some.inj (reads.symm.trans same))
          exact fresh (named ▸ inside)
        rw [own, others, List.append_nil, kept t fresh, Config.get_assign, Function.update_self]
        exact sourced
      · have others : first.filter (fun e => e.1.readKey = some t.name) = [] := by
          simp only [List.filter_eq_nil_iff, decide_eq_true_eq]
          intro e member same
          have named : s = t := Setting.name_injective
            (Option.some.inj ((sourced.only e member).symm.trans same))
          exact fresh (named ▸ inside)
        rw [others, List.nil_append]
        exact loaded t inside

/-- Each setting that a load read well is like the one stored at one of its calls. Any other is the
default, and then a call has failed of itself or the setting was torn. -/
theorem load_sourced (traced : (c.load sha256).Traces calls c') (s : Setting) :
    (s.ReadWell calls → ∃ e ∈ calls, e.1.readKey = some s.name ∧
      ∀ es, AnswersFrom es e → s.Alike (c'.get s) (s.stored sha256 es)) ∧
    (¬s.ReadWell calls → c'.get s = s.fallback sha256) ∧
    (c.kvstore.started = true →
      (∃ e ∈ calls, ∀ es, Heard es e → s.Alike (c'.get s) (s.stored sha256 es)) ∨
        s.Torn calls) := by
  rw [Config.load_eq] at traced
  obtain ⟨begun, opening, reads, opened, loaded, rfl⟩ := traces_bind.mp traced
  have none : ∀ e ∈ opening, e.1.readKey ≠ some s.name := by
    intro e member reads
    cases ((begin_reads_nothing _ _ _).of_mem opened e member).symm.trans reads
  obtain ⟨-, -, -, each⟩ := loadAll_sourced Setting.all_nodup loaded
  have sourced := each s s.mem_all
  rw [Setting.readWell_append_right none]
  refine ⟨fun well => ?_, sourced.badly, fun started => ?_⟩
  · obtain ⟨e, member, source⟩ := sourced.well well
    have inside := List.mem_append_right opening (List.mem_of_mem_filter member)
    exact ⟨e, inside, sourced.only e member, source⟩
  · rw [KVStore.begin_of_started started] at opened
    obtain ⟨rfl, rfl⟩ := traces_pure.mp opened
    refine (sourced.heard started).imp ?_ fun torn => torn.mono (List.filter_subset_self _)
    rintro ⟨e, member, source⟩
    exact ⟨e, List.mem_of_mem_filter member, source⟩

end Load

end Stembot
