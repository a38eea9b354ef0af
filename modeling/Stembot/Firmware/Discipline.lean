import Stembot.Firmware.Stack
import Stembot.Storage.Discipline

/-!
# What the task holds, and when

Whatever its devices answer: the task's configuration keeps one handle of the
storage, and a form may need a second one for a while. Keys, cipher operations
and HTTP clients are there only during a post, and nothing but the handle of the
configuration is while the task pauses.
-/

namespace Stembot

open Library Program

/-- A call is made on an open handle, one that may be written if the call writes. A namespace is
opened while at most one handle is open. -/
structure Ledger.Nested (opened : Ledger) (op : NvsOp) : Prop where
  held : ∀ h, op.target = some h → ∃ readOnly, opened.lookup h = some readOnly ∧
    (op.Modifies → readOnly = false)
  room : op.target = none → opened.length ≤ 1

/-- What the task may ask for, given the handles that are open. While it pauses or posts, that is at
most one. -/
def tenure : Monitor ProcessorOp ProcessorOp.Res Ledger where
  allows opened
    | .nvs op => opened.Nested op
    | .delay _ | .post _ _ => opened.length ≤ 1
    | .deserializeJson _ | .currentTime => True
  next opened
    | ⟨.nvs op, r⟩ => opened.next ⟨op, r⟩
    | _ => opened

section Tenure

theorem Ledger.lookup_of_mem {opened : Ledger} {h : NvsHandle} {readOnly : Bool}
    (member : (h, readOnly) ∈ opened) :
    ∃ readOnly', opened.lookup h = some readOnly' ∧ (h, readOnly') ∈ opened := by
  induction opened with
  | nil => cases member
  | cons entry opened ih =>
    obtain ⟨h', mode⟩ := entry
    by_cases same : h' = h
    · subst same
      exact ⟨mode, List.lookup_cons_self, List.mem_cons_self⟩
    · have later : (h, readOnly) ∈ opened := by
        rcases List.mem_cons.mp member with first | later
        · exact absurd (congrArg Prod.fst first).symm same
        · exact later
      obtain ⟨readOnly', found, there⟩ := ih later
      exact ⟨readOnly', by rw [List.lookup_cons, beq_false_of_ne (Ne.symm same)]; exact found,
        List.mem_cons_of_mem _ there⟩

theorem Ledger.lookup_append {opened rest : Ledger} {h : NvsHandle} {readOnly : Bool}
    (found : opened.lookup h = some readOnly) : List.lookup h (opened ++ rest) = some readOnly := by
  rw [List.lookup_append, found]
  rfl

/-- An object that keeps to its own handles does so in front of others. -/
theorem Ledger.Allows.nested {opened rest : Ledger} {op : NvsOp} (allowed : opened.Allows op)
    (room : rest.length ≤ 1) : Ledger.Nested (opened ++ rest) op := by
  constructor
  · intro h target
    obtain ⟨_, member⟩ := allowed.held h target
    obtain ⟨readOnly, found, there⟩ := Ledger.lookup_of_mem member
    refine ⟨readOnly, Ledger.lookup_append found, fun modifies => ?_⟩
    cases readOnly with
    | false => rfl
    | true => exact absurd there (allowed.writable modifies h target)
  · intro free
    rw [allowed.alone free, List.nil_append]
    exact room

theorem Ledger.Allows.next_append {opened rest : Ledger} {op : NvsOp} (allowed : opened.Allows op)
    (r : op.Res) :
    Ledger.next (opened ++ rest) ⟨op, r⟩ = opened.next ⟨op, r⟩ ++ rest := by
  cases op with
  | openNs name readOnly => cases r <;> rfl
  | close h =>
    obtain ⟨readOnly, member⟩ := allowed.held h rfl
    exact List.eraseP_append_left (p := fun entry : NvsHandle × Bool => decide (entry.1 = h))
      (by simp) rest member
  | _ => rfl

theorem onNvs_eq_lower {α : Type} (p : NvsProgram α) :
    onNvs p = p.lower fun op => Program.issue (ProcessorOp.nvs op) := by
  induction p with
  | done a => rfl
  | call op next ih => exact congrArg (Program.call (ProcessorOp.nvs op)) (funext ih)

/-- Storage calls of one object, while another one may be open. -/
theorem onNvs_obeys {α : Type} {p : NvsProgram α} {opened rest : Ledger} {opened' : α → Ledger}
    (obeys : access.Obeys opened p opened') (room : rest.length ≤ 1) :
    tenure.Obeys (opened ++ rest) (onNvs p) fun a => opened' a ++ rest := by
  have sound : Monitor.Sound access tenure (fun opened => opened ++ rest)
      fun op => Program.issue (ProcessorOp.nvs op) := by
    intro opened op allowed
    exact .issue (Ledger.Allows.nested allowed room) fun r => Ledger.Allows.next_append allowed r
  rw [onNvs_eq_lower]
  exact obeys.lower sound

theorem onNvs_obeys_alone {α : Type} {p : NvsProgram α} {opened : Ledger} {opened' : α → Ledger}
    (obeys : access.Obeys opened p opened') : tenure.Obeys opened (onNvs p) opened' := by
  have behind := onNvs_obeys obeys (show ([] : Ledger).length ≤ 1 by decide)
  simpa only [List.append_nil] using behind

end Tenure

section Configuration

variable (sha256 : Sha256)

/-- The reads of a load only use the handle. -/
theorem Config.loadFrom_obeys (c : Config) (kv : KVStore) :
    access.Obeys kv.ledger (c.loadFrom sha256 kv) fun c' => c'.kvstore.ledger := by
  have reads : ∀ {α : Type} {p : NvsProgram α}, p.Issues kv.Uses →
      access.Obeys kv.ledger p fun _ => kv.ledger :=
    fun uses => .of_issues uses (fun _ used => used.allowed) fun _ r used => used.known r
  refine (reads (KVStore.getString_uses _ _)).bind fun _ => ?_
  refine (reads (KVStore.getBytes_uses _ _)).bind fun _ => ?_
  refine (reads (KVStore.getString_uses _ _)).bind fun _ => ?_
  refine (reads (KVStore.getString_uses _ _)).bind fun _ => ?_
  refine (reads (KVStore.getString_uses _ _)).bind fun _ => ?_
  refine (reads (Getter.call_uses .bool _ _)).bind fun _ => ?_
  refine (reads (Getter.call_uses .bool _ _)).bind fun _ => ?_
  exact .pure rfl

theorem Config.load_obeys (c : Config) :
    access.Obeys c.kvstore.ledger (c.load sha256) fun c' => c'.kvstore.ledger :=
  (c.kvstore.begin_obeys "config" false).bind fun r => c.loadFrom_obeys sha256 r.2

theorem Config.create_obeys : access.Obeys [] (Config.create sha256) fun c => c.kvstore.ledger :=
  Config.blank.load_obeys sha256

theorem Config.destroy_obeys (c : Config) :
    access.Obeys c.kvstore.ledger c.destroy fun _ => [] := by
  have closed : access.Obeys c.kvstore.ledger c.kvstore.close fun _ => [] := by
    intro es kv traced
    obtain ⟨accepted, known⟩ := c.kvstore.close_obeys es kv traced
    have stopped := c.kvstore.close_stops es kv traced fun _ _ => trivial
    exact ⟨accepted, known.trans (KVStore.ledger_of_stopped stopped)⟩
  exact closed.bind fun _ => .pure rfl

end Configuration

/-- Anything but a storage call. -/
def ProcessorOp.Aside : ProcessorOp → Prop
  | .nvs _ => False
  | _ => True

section Task

variable (A : ArduinoJson) (sha256 : Sha256) (maxSize : Nat) {opened : Ledger}
  (few : opened.length ≤ 1)

theorem KVStore.ledger_length (kv : KVStore) : kv.ledger.length ≤ 1 := by
  unfold KVStore.ledger
  split <;> simp

include few

/-- What does not touch the storage leaves the handles alone. -/
theorem aside_obeys {α : Type} {p : ProcessorProgram α} (aside : p.Issues ProcessorOp.Aside) :
    tenure.Obeys opened p fun _ => opened := by
  refine .of_issues aside (fun op free => ?_) fun op r free => ?_
  · cases op with
    | nvs op => exact free.elim
    | delay _ | post _ _ => exact few
    | deserializeJson _ | currentTime => trivial
  · cases op with
    | nvs op => exact free.elim
    | _ => rfl

omit few in
theorem sendNetworkMessage_aside (client : AgentClient) (msgJson : Bytes) :
    (sendNetworkMessage A client msgJson).Issues ProcessorOp.Aside :=
  ⟨trivial, fun _ => ⟨trivial, fun _ => trivial⟩⟩

omit few in
theorem sendTrace_aside (config : Config) (client : AgentClient)
    (ticket : NetworkTicket) (type : Bytes) :
    (sendTrace A config client ticket type).Issues ProcessorOp.Aside := by
  unfold sendTrace
  split
  · exact ⟨trivial, fun _ => (sendNetworkMessage_aside A client _).bind fun _ => trivial⟩
  · trivial

omit few in
theorem ticketToJson_aside (typeTag : Bytes) (ticket : NetworkTicket) :
    (ticketToJson A typeTag ticket).Issues ProcessorOp.Aside := by
  unfold ticketToJson
  split
  · trivial
  · exact ⟨trivial, fun _ => trivial⟩

theorem parse_obeys (text : Bytes) : tenure.Obeys opened (parse text) fun _ => opened :=
  aside_obeys few ⟨trivial, fun _ => trivial⟩

/-- The configuration that a `get_config` form constructs is destroyed again. -/
theorem processControlForm_obeys (config : Config) (formJson : Bytes) :
    tenure.Obeys opened (processControlForm A sha256 maxSize config formJson) fun _ => opened := by
  refine (parse_obeys few formJson).bind fun doc => ?_
  cases controlFormTypeOf (typeOfDoc doc) with
  | GetConfig =>
    have created := onNvs_obeys (Config.create_obeys sha256) few
    have destroyed (saved : Config) := onNvs_obeys saved.destroy_obeys few
    refine (parse_obeys few formJson).bind fun _ => created.bind fun saved => ?_
    exact (destroyed saved).bind fun _ => .pure rfl
  | Benchmark => exact (parse_obeys few formJson).bind fun _ => .pure rfl
  | Unknown =>
    cases config.debug with
    | true => exact (parse_obeys few formJson).bind fun _ => .pure rfl
    | false => exact .pure rfl

theorem processNetworkMessage_obeys (config : Config) (client : AgentClient) (msgJson : Bytes) :
    tenure.Obeys opened (processNetworkMessage A sha256 maxSize config client msgJson) fun _ =>
      opened := by
  refine (parse_obeys few msgJson).bind fun doc => ?_
  cases networkMessageTypeOf (typeOfDoc doc) with
  | TicketRequest =>
    refine (parse_obeys few msgJson).bind fun doc => ?_
    refine (aside_obeys few (sendTrace_aside A config client _ _)).bind fun _ => ?_
    refine (processControlForm_obeys A sha256 maxSize few config _).bind fun reply => ?_
    cases reply with
    | none => exact .pure rfl
    | some formJson =>
      refine (aside_obeys few (sendTrace_aside A config client _ _)).bind fun _ => ?_
      refine (aside_obeys few (ticketToJson_aside A _ _)).bind fun text => ?_
      exact (aside_obeys few (sendNetworkMessage_aside A client text)).bind fun _ => .pure rfl
  | Ping =>
    refine (parse_obeys few msgJson).bind fun doc => ?_
    refine (aside_obeys few (p := getCurrentTime) ⟨trivial, fun _ => trivial⟩).bind fun _ => ?_
    exact (aside_obeys few (sendNetworkMessage_aside A client _)).bind fun _ => .pure rfl
  | _ => exact (parse_obeys few msgJson).bind fun _ => .pure rfl

theorem processMessages_obeys (config : Config) (client : AgentClient) (msgJsons : List Bytes) :
    tenure.Obeys opened (processMessages A sha256 maxSize config client msgJsons) fun _ =>
      opened := by
  induction msgJsons with
  | nil => exact .pure rfl
  | cons msgJson rest ih =>
    refine (processNetworkMessage_obeys A sha256 maxSize few config client msgJson).bind fun done =>
      ?_
    cases done with
    | none => exact .pure rfl
    | some _ => exact ih

omit few

/-- A configuration that is loaded again keeps its handle, or tries once more to get one. -/
theorem wake_obeys (t : Task) :
    tenure.Obeys t.config.kvstore.ledger (wake sha256 t) fun t' => t'.config.kvstore.ledger := by
  unfold wake
  split
  · have loading : access.Obeys t.config.kvstore.ledger (refresh sha256 t) fun t' =>
      t'.config.kvstore.ledger :=
      (t.config.load_obeys sha256).bind fun _ => .pure rfl
    refine (onNvs_obeys_alone loading).bind fun t' => ?_
    have pause : (vTaskDelay t'.config.pollTicks).Issues ProcessorOp.Aside :=
      ⟨trivial, fun _ => trivial⟩
    exact (aside_obeys t'.config.kvstore.ledger_length pause).bind fun _ => .pure rfl
  · exact .pure rfl

/-- The handles that are open once an iteration is over, or an exception has escaped. -/
def Task.Left (r : Option Task) (opened : Ledger) : Prop :=
  opened.length ≤ 1 ∧ ∀ t, r = some t → opened = t.config.kvstore.ledger

theorem Task.left_some (t : Task) : Task.Left (some t) t.config.kvstore.ledger :=
  ⟨t.config.kvstore.ledger_length, fun t' same => by rw [Option.some.inj same]⟩

/-- A program that leaves the task's handle alone, and what follows it. -/
theorem leads_behind {α β : Type} {p : ProcessorProgram α} {k : α → ProcessorProgram β}
    {Q : β → Ledger → Prop} (still : tenure.Obeys opened p fun _ => opened)
    (rest : ∀ a, tenure.Leads opened (k a) Q) :
    tenure.Leads opened (p >>= k) Q := by
  refine (still.leads (Q := fun _ opened' => opened' = opened) fun _ => rfl).bind ?_
  rintro a _ rfl
  exact rest a

theorem iteration_leads (t : Task) :
    tenure.Leads t.config.kvstore.ledger (iteration A sha256 maxSize t) Task.Left := by
  rw [iteration_eq]
  refine ((wake_obeys sha256 t).leads (Q := fun t' opened => opened = t'.config.kvstore.ledger)
    fun _ => rfl).bind ?_
  rintro t _ rfl
  have few := t.config.kvstore.ledger_length
  split
  · have polled : (sendPoll A t).Issues ProcessorOp.Aside :=
      ⟨trivial, fun _ => sendNetworkMessage_aside A t.client _⟩
    refine leads_behind (aside_obeys few polled) fun reply => ?_
    split
    · exact .pure (Task.left_some { t with idle := true })
    · refine leads_behind (parse_obeys few reply) fun doc => ?_
      refine leads_behind (processMessages_obeys A sha256 maxSize few t.config t.client _)
        fun done => ?_
      cases done with
      | none => exact .pure ⟨few, nofun⟩
      | some _ => exact .pure (Task.left_some { t with idle := _ })
  · exact .pure (Task.left_some { t with idle := true })

theorem loop_leads (n : Nat) (t : Task) :
    tenure.Leads t.config.kvstore.ledger (loop A sha256 maxSize n t) Task.Left := by
  induction n generalizing t with
  | zero => exact .pure t.left_some
  | succ n ih =>
    refine (iteration_leads A sha256 maxSize t).bind fun r opened left => ?_
    cases r with
    | none => exact .pure left
    | some t =>
      obtain rfl := left.2 t rfl
      exact ih t

theorem startProcessor_leads (n : Nat) :
    tenure.Leads [] (startProcessor A sha256 maxSize n) Task.Left := by
  have created := onNvs_obeys_alone (Config.create_obeys sha256)
  refine (created.leads (Q := fun config opened => opened = config.kvstore.ledger) fun _ =>
    rfl).bind ?_
  rintro config _ rfl
  exact loop_leads A sha256 maxSize n (.initial config)

end Task

/-- What the whole firmware holds: handles of the storage, and what the transport does. -/
structure Usage where
  opened : Ledger := []
  inHand : InHand := {}

/-- The devices are not used by turns: while the client works on a post, at most one handle of the
storage is open, and while anything else is done the client holds nothing. -/
def Usage.Allows (u : Usage) : FirmwareOp → Prop
  | .nvs op => u.opened.Nested op ∧ u.inHand = {}
  | .deserializeJson _ | .currentTime => u.inHand = {}
  | .delay _ => u.opened.length ≤ 1 ∧ u.inHand = {}
  | .transport op => u.inHand.Allows op ∧ u.opened.length ≤ 1

def Usage.next (u : Usage) : FirmwareAnswer → Usage
  | ⟨.nvs op, r⟩ => { u with opened := u.opened.next ⟨op, r⟩ }
  | ⟨.transport op, r⟩ => { u with inHand := u.inHand.next ⟨op, r⟩ }
  | _ => u

def usage : Monitor FirmwareOp FirmwareOp.Res Usage where
  allows := Usage.Allows
  next := Usage.next

theorem carryOut_sound : Monitor.Sound tenure usage (fun opened => { opened }) carryOut := by
  intro opened op allowed
  cases op with
  | nvs op => exact .issue ⟨allowed, rfl⟩ fun _ => rfl
  | deserializeJson _ => exact .issue rfl fun _ => rfl
  | currentTime => exact .issue rfl fun _ => rfl
  | delay _ => exact .issue ⟨allowed, rfl⟩ fun _ => rfl
  | post client text =>
    have sound : Monitor.Sound inHand usage (fun inHand => { opened, inHand })
      fun op => Program.issue (FirmwareOp.transport op) := by
      intro held op allowed'
      exact .issue ⟨allowed', allowed⟩ fun _ => rfl
    exact (Transport.postEncrypted_obeys client text).lower sound

theorem firmware_leads (A : ArduinoJson) (sha256 : Sha256) (maxSize n : Nat) :
    usage.Leads {} (firmware A sha256 maxSize n) fun _ u => u.opened.length ≤ 1 ∧
      u.inHand = {} := by
  intro es r traced
  obtain ⟨accepted, opened, known, left⟩ :=
    (startProcessor_leads A sha256 maxSize n).lower carryOut_sound es r traced
  rw [known]
  exact ⟨accepted, left.1, rfl⟩

namespace NvsCall

def opens (h : NvsHandle) : NvsCall → Bool
  | ⟨.openNs _ _, r⟩ => r = some h
  | _ => false

def closes (h : NvsHandle) : NvsCall → Bool
  | ⟨.close h', _⟩ => h' = h
  | _ => false

end NvsCall

/-- What was there has been given back, the handle of the configuration apart: keys, cipher
operations, HTTP clients and handles of the storage. -/
structure Settled (es : List FirmwareAnswer) : Prop where
  cipher : Orderly (es.filterMap FirmwareAnswer.psa)
  clients : ∀ client, (es.filterMap FirmwareAnswer.http).countP (HttpAnswer.makes client) =
    (es.filterMap FirmwareAnswer.http).countP (HttpAnswer.cleansUp client)
  handles : ∃ opened : Ledger, opened.length ≤ 1 ∧
    ∀ h, (es.filterMap FirmwareAnswer.nvs).countP (NvsCall.opens h) =
    (es.filterMap FirmwareAnswer.nvs).countP (NvsCall.closes h) + opened.countP fun entry =>
    entry.1 = h

section Settled

/-- The handles of the storage alone. -/
def nesting : Monitor NvsOp NvsOp.Res Ledger where
  allows := Ledger.Nested
  next := Ledger.next

theorem Ledger.held_step (h : NvsHandle) (opened : Ledger) (e : NvsCall)
    (allowed : opened.Nested e.1) :
    opened.countP (fun entry => entry.1 = h) + (NvsCall.opens h e).toNat =
      (opened.next e).countP (fun entry => entry.1 = h) + (NvsCall.closes h e).toNat := by
  obtain ⟨op, r⟩ := e
  cases op with
  | openNs name readOnly =>
    cases r with
    | none => rfl
    | some h' => by_cases same : h' = h <;> simp [Ledger.next, NvsCall.opens, NvsCall.closes, same]
  | close h' =>
    obtain ⟨readOnly, found, -⟩ := allowed.held h' rfl
    exact Monitor.countP_eraseP (Option.isSome_of_mem found) h
  | _ => rfl

variable {es : List FirmwareAnswer} {u : Usage}

theorem Usage.accepts_psa (accepted : usage.Accepts u es) :
    custody.Accepts u.inHand.custody (es.filterMap FirmwareAnswer.psa) ∧
      (usage.after u es).inHand.custody =
        custody.after u.inHand.custody (es.filterMap FirmwareAnswer.psa) := by
  refine accepted.project (fun u : Usage => u.inHand.custody) FirmwareAnswer.psa ?_ ?_
  · intro u e e' allowed shown
    obtain ⟨op, r⟩ := e
    cases op with
    | transport op =>
      cases op with
      | psa op =>
        obtain rfl := Option.some.inj shown
        exact ⟨allowed.1.1, rfl⟩
      | http _ => cases shown
    | _ => cases shown
  · intro u e _ hidden
    obtain ⟨op, r⟩ := e
    cases op with
    | transport op =>
      cases op with
      | psa _ => cases hidden
      | http _ => rfl
    | _ => rfl

theorem Usage.accepts_http (accepted : usage.Accepts u es) :
    connection.Accepts u.inHand.connection (es.filterMap FirmwareAnswer.http) ∧
      (usage.after u es).inHand.connection =
        connection.after u.inHand.connection (es.filterMap FirmwareAnswer.http) := by
  refine accepted.project (fun u : Usage => u.inHand.connection) FirmwareAnswer.http ?_ ?_
  · intro u e e' allowed shown
    obtain ⟨op, r⟩ := e
    cases op with
    | transport op =>
      cases op with
      | http op =>
        obtain rfl := Option.some.inj shown
        exact ⟨allowed.1.1, rfl⟩
      | psa _ => cases shown
    | _ => cases shown
  · intro u e _ hidden
    obtain ⟨op, r⟩ := e
    cases op with
    | transport op =>
      cases op with
      | http _ => cases hidden
      | psa _ => rfl
    | _ => rfl

theorem Usage.accepts_nvs (accepted : usage.Accepts u es) :
    nesting.Accepts u.opened (es.filterMap FirmwareAnswer.nvs) ∧
      (usage.after u es).opened = nesting.after u.opened (es.filterMap FirmwareAnswer.nvs) := by
  refine accepted.project (fun u : Usage => u.opened) FirmwareAnswer.nvs ?_ ?_
  · intro u e e' allowed shown
    obtain ⟨op, r⟩ := e
    cases op with
    | nvs op =>
      obtain rfl := Option.some.inj shown
      exact ⟨allowed.1, rfl⟩
    | _ => cases shown
  · intro u e _ hidden
    obtain ⟨op, r⟩ := e
    cases op with
    | nvs _ => cases hidden
    | _ => rfl

theorem Settled.of_accepts (accepted : usage.Accepts {} es)
    (few : (usage.after {} es).opened.length ≤ 1) (free : (usage.after {} es).inHand = {}) :
    Settled es := by
  obtain ⟨cipher, custody'⟩ := Usage.accepts_psa accepted
  obtain ⟨http, connection'⟩ := Usage.accepts_http accepted
  obtain ⟨nvs, opened'⟩ := Usage.accepts_nvs accepted
  rw [free] at custody' connection'
  refine ⟨.of_accepts cipher custody'.symm, Connection.balanced http connection'.symm,
    _, few, fun h => ?_⟩
  have balance := nvs.balance (Ledger.held_step h)
  rw [← opened'] at balance
  simpa [Nat.add_comm] using balance

end Settled

/-- In every run of the task, whatever its devices answer, the devices are used by their rules. The
task reads and parses while its client holds nothing, and pauses with one handle of the storage at
most. Before every pause, and in the end, what was taken has been given back. -/
theorem firmware_orderly {A : ArduinoJson} {sha256 : Sha256} {maxSize n : Nat}
    {es : List FirmwareAnswer} {r : Option Task} (ran : (firmware A sha256 maxSize n).Traces es r) :
    (∀ before e after, es = before ++ e :: after → (usage.after {} before).Allows e.1) ∧
      (∀ before ticks after, es = before ++ ⟨.delay ticks, ()⟩ :: after → Settled before) ∧
        Settled es := by
  obtain ⟨accepted, few, free⟩ := firmware_leads A sha256 maxSize n es r ran
  refine ⟨fun before e after split => accepted.allowed split, fun before ticks after split => ?_,
    .of_accepts accepted few free⟩
  obtain ⟨few', free'⟩ := accepted.allowed split
  rw [split, Monitor.accepts_append] at accepted
  exact .of_accepts accepted.1 few' free'

theorem firmware_orderly_sample :
    Settled ((firmware textLibrary sampleSha256 0 2).trace
      (Board.answer textLibrary samplePsa sampleHttp)
      (sampleBoard (sampleEntries sampleUuid sampleKey))) :=
  (firmware_orderly (traces_run _ (firmware textLibrary sampleSha256 0 2) _)).2.2

end Stembot
