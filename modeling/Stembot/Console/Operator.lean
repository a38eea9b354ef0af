import Stembot.Console.Commands

/-!
# The operator's view

Two tables: what was given to `set`, and what had been given when the settings
were last saved. What the operator expects the processor to use is read off them.
-/

namespace Stembot

open Library

namespace Setting

/-- The name of a setting on the command line; the key is given as a passphrase. -/
def field : Setting → String
  | .agtuuid => "agtuuid"
  | .key => "passphrase"
  | .peerUrl => "peerUrl"
  | .wifiSSID => "wifiSSID"
  | .wifiPassword => "wifiPassword"
  | .debug => "debug"
  | .polling => "polling"

theorem field_injective : Function.Injective field := by
  intro s s' same
  cases s <;> cases s' <;> first | rfl | exact absurd same (by decide)

/-- What the operator means by a value. -/
abbrev Value : Setting → Type
  | .agtuuid | .peerUrl | .wifiSSID | .wifiPassword => CString
  | .key => Key
  | .debug | .polling => Bool

def ofText (sha : Bytes → Key) : (s : Setting) → CString → Option s.Value
  | .agtuuid, text | .peerUrl, text | .wifiSSID, text | .wifiPassword, text => some text
  | .key, text => some (sha text.1)
  | .debug, text | .polling, text =>
    if text.1 = bytes "true" then some true else if text.1 = bytes "false" then some false else none

/-- What the console's configuration keeps of a value. -/
def kept : (s : Setting) → s.Value → s.Carrier
  | .agtuuid, v => strncpySizeof (.replicate 36 0) (v.1.take 35)
  | .peerUrl, v | .wifiSSID, v | .wifiPassword, v => v.1
  | .key, v => v
  | .debug, v | .polling, v => v

end Setting

/-- What was given to `set` for each setting, if anything was. -/
abbrev Requests := (s : Setting) → Option s.Value

/-- The effect of a `set`; `none` where it is rejected. -/
def Requests.record (sha : Bytes → Key) (r : Requests) (args : Option (CString × CString)) :
    Option Requests := do
  let (field, text) ← args
  let s ← Setting.all.find? fun s => field.1 = bytes s.field
  let v ← s.ofText sha text
  return Function.update r s (some v)

structure Operator where
  current : Requests := fun _ => none
  saved : Requests := fun _ => none

namespace Operator

variable (sha : Bytes → Key)

def step (op : Operator) : Command → Operator
  | .set args => { op with current := (op.current.record sha args).getD op.current }
  | .save => { op with saved := op.current }
  | .reload => op

def run (op : Operator) (commands : List Command) : Operator := commands.foldl (step sha) op

end Operator

/-- The values at work between two reloads. -/
structure InUse where
  url : Bytes
  agtuuid : Bytes
  key : Key
  polling : Bool
  debug : Bool
  deriving DecidableEq

def Task.inUse (t : Task) : InUse where
  url := t.client.url
  agtuuid := t.client.agtuuid
  key := t.client.key
  polling := t.config.polling
  debug := t.config.debug

namespace Requests

variable (sha : Bytes → Key) (stored : Entries) (r : Requests)

/-- What the operator expects: each value as it was given, or as it was stored at the start. -/
def inUse : InUse where
  url := ((r .peerUrl).map Subtype.val).getD (Entries.string (stored "peer_url") [])
  agtuuid := ((r .agtuuid).map Subtype.val).getD (Config.storedUuid stored)
  key := (r .key).getD (Config.loadedKey (hashing sha) (stored "key"))
  polling := (r .polling).getD (Entries.bool (stored "polling") false)
  debug := (r .debug).getD (Entries.bool (stored "debug") false)

/-- What lies behind the buffer of the agent uuid. -/
def behind : Bytes :=
  let given := r.inUse sha stored
  given.key.toList ++ [Config.flag given.debug, Config.flag given.polling] ++
    Config.padding ++ Config.word 100

/-- The agent uuid and its terminator fit the buffer, or what lies behind the buffer happens to be
the rest of it. -/
def Fits : Prop :=
  match r .agtuuid with
  | some v => v.1.length ≤ 35
  | none =>
    (Config.storedUuid stored).length < 36 ∨
      (Config.storedUuid stored).drop 36 = cstr (r.behind sha stored)

instance : Decidable (r.Fits sha stored) :=
  match given : r .agtuuid with
  | some v => decidable_of_iff (v.1.length ≤ 35) (by simp [Fits, given])
  | none =>
    decidable_of_iff
      ((Config.storedUuid stored).length < 36 ∨
        (Config.storedUuid stored).drop 36 = cstr (r.behind sha stored)) (by simp [Fits, given])

/-- The settings as the code holds them. -/
def held (s : Setting) : s.Carrier := (r s).elim (s.stored (hashing sha) stored) s.kept

theorem held_update (s : Setting) (v : s.Value) :
    held sha stored (Function.update r s (some v)) =
      Function.update (r.held sha stored) s (s.kept v) := by
  funext s'
  by_cases same : s' = s
  · subst same
    simp [held]
  · simp [held, same]

end Requests

section Set

variable (sha256 : Sha256) {c : Config}

theorem proper_assign (proper : c.Proper) (s : Setting) (v : s.Value) :
    (c.assign s (s.kept v)).Proper := by
  obtain ⟨agtuuid, peerUrl, wifiSSID, wifiPassword⟩ := proper
  cases s with
  | agtuuid => exact ⟨⟨_, rfl⟩, peerUrl, wifiSSID, wifiPassword⟩
  | peerUrl => exact ⟨agtuuid, v.2, wifiSSID, wifiPassword⟩
  | wifiSSID => exact ⟨agtuuid, peerUrl, v.2, wifiPassword⟩
  | wifiPassword => exact ⟨agtuuid, peerUrl, wifiSSID, v.2⟩
  | key | debug | polling => exact ⟨agtuuid, peerUrl, wifiSSID, wifiPassword⟩

theorem cmdSet_unknown (c : Config) {field : CString} (text : CString)
    (unknown : ∀ s : Setting, field.1 ≠ bytes s.field) :
    cmdSet sha256 c (some (field, text)) = (1, c) := by
  refine (if_neg (unknown .agtuuid)).trans <| (if_neg (unknown .peerUrl)).trans <|
    (if_neg (unknown .wifiSSID)).trans <| (if_neg (unknown .wifiPassword)).trans <| ?_
  exact (if_neg (unknown .key)).trans <| (if_neg (unknown .polling)).trans <|
    if_neg (unknown .debug)

theorem cmdSet_known (c : Config) {field : CString} (text : CString) {s : Setting}
    (known : field.1 = bytes s.field) :
    cmdSet sha256 c (some (field, text)) =
      (s.ofText (setKeyWithPassphrase sha256) text).elim (1, c) fun v =>
        (0, c.assign s (s.kept v)) := by
  cases s with
  | agtuuid =>
    have buffer : (strncpy c.agtuuid text.1 35 (by decide)).set 35 0 =
        strncpySizeof (.replicate 36 0) (text.1.take 35) :=
      strncpy_terminated c.agtuuid (.replicate 36 0) text
    simp only [cmdSet, known, Setting.field, if_true, buffer]
    rfl
  | key =>
    simp [cmdSet, known, Setting.field, Setting.ofText, Setting.kept, Config.assign,
      Config.setPassphrase]
  | peerUrl | wifiSSID | wifiPassword =>
    simp [cmdSet, known, Setting.field, Setting.ofText, Setting.kept, Config.assign]
  | debug | polling =>
    by_cases isTrue : text.1 = bytes "true"
    · simp [cmdSet, known, Setting.field, Setting.ofText, Setting.kept, Config.assign, isTrue]
    · by_cases isFalse : text.1 = bytes "false" <;>
        simp [cmdSet, known, Setting.field, Setting.ofText, Setting.kept,
          Config.assign, isTrue, isFalse]

/-- A `set` changes the setting it names, unless the value is rejected, and no other. -/
theorem cmdSet_get (t : Setting) (c : Config) (field text : CString) :
    (cmdSet sha256 c (some (field, text))).2.get t =
      if field.1 = bytes t.field then (t.ofText (setKeyWithPassphrase sha256) text).elim
        (c.get t) t.kept
      else c.get t := by
  by_cases found : ∃ s : Setting, field.1 = bytes s.field
  · obtain ⟨s, known⟩ := found
    rw [cmdSet_known sha256 c text known]
    by_cases same : s = t
    · subst same
      rw [if_pos known]
      cases s.ofText (setKeyWithPassphrase sha256) text with
      | none => rfl
      | some v =>
        change (c.assign s (s.kept v)).get s = s.kept v
        rw [Config.get_assign, Function.update_self]
    · have other : field.1 ≠ bytes t.field := by
        rw [known, ne_eq, bytes_inj]
        exact fun equal => same (Setting.field_injective equal)
      rw [if_neg other]
      cases s.ofText (setKeyWithPassphrase sha256) text with
      | none => rfl
      | some v =>
        change (c.assign s (s.kept v)).get t = c.get t
        rw [Config.get_assign, Function.update_of_ne (Ne.symm same)]
  · push Not at found
    rw [cmdSet_unknown sha256 c text found, if_neg (found t)]

/-- A `set` is rejected and changes nothing, or it puts the value it is recorded with. -/
theorem cmdSet_cases (c : Config) (r : Requests) (args : Option (CString × CString)) :
    (r.record (setKeyWithPassphrase sha256) args = none ∧ cmdSet sha256 c args = (1, c)) ∨
      ∃ (s : Setting) (v : s.Value),
        r.record (setKeyWithPassphrase sha256) args = some (Function.update r s (some v)) ∧
        cmdSet sha256 c args = (0, c.assign s (s.kept v)) := by
  match args with
  | none => exact .inl ⟨rfl, rfl⟩
  | some (field, text) =>
    cases found : Setting.all.find? fun s => field.1 = bytes s.field with
    | none =>
      have unknown : ∀ s : Setting, field.1 ≠ bytes s.field := by
        intro s
        simpa using List.find?_eq_none.mp found s s.mem_all
      exact .inl ⟨by simp [Requests.record, found], cmdSet_unknown sha256 c text unknown⟩
    | some s =>
      have known : field.1 = bytes s.field := by simpa using List.find?_some found
      rw [cmdSet_known sha256 c text known]
      cases value : s.ofText (setKeyWithPassphrase sha256) text with
      | none => exact .inl ⟨by simp [Requests.record, found, value], rfl⟩
      | some v => exact .inr ⟨s, v, by simp [Requests.record, found, value], rfl⟩

/-- A `set` keeps the store and the form of the configuration. -/
theorem cmdSet_proper (proper : c.Proper) (args : Option (CString × CString)) :
    (cmdSet sha256 c args).2.Proper ∧ (cmdSet sha256 c args).2.kvstore = c.kvstore := by
  rcases cmdSet_cases sha256 c (fun _ => none) args with ⟨-, same⟩ | ⟨s, v, -, put⟩
  · rw [same]
    exact ⟨proper, rfl⟩
  · rw [put]
    exact ⟨proper_assign proper s v, c.kvstore_assign s _⟩

end Set

end Stembot
