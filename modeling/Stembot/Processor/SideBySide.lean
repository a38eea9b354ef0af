import Stembot.Processor.World

/-!
# Two runs of the task side by side

Two worlds that give the same documents, times and replies see the same texts
posted, when the configurations read from their storage speak alike.
-/

namespace Stembot

open Library Program

/-- The worlds agree on all that the task is told, and it has posted the same texts in both. Each
parses with a library of its own; `N` relates the storage. -/
structure Alike (A₁ A₂ : ArduinoJson) (N : Nvs → Nvs → Prop) (w w' : World) : Prop where
  nvs : N w.nvs w'.nvs
  times : w.times = w'.times
  replies : w.replies = w'.replies
  docs : ∀ n text, (World.parseAs A₁ (w.failures n) text).doc =
    (World.parseAs A₂ (w'.failures n) text).doc
  posted : texts w.log = texts w'.log

/-- What two configurations say: everything but the secrets. It matters only while polling, and
then `on` holds. -/
structure SpeaksAlike (on : Prop) (c c' : Config) : Prop where
  kvstore : c.kvstore = c'.kvstore
  polling : c.polling = c'.polling
  uuid : c.polling = true → on ∧ c.uuid = c'.uuid
  debug : c.debug = c'.debug

/-- Loading, constructing and destroying configurations beside each other. `L` and `C` relate the
configurations that may be reloaded, and the fresh ones. -/
structure Views (sha256 : Sha256) (on : Prop) (N : Nvs → Nvs → Prop)
    (L C : Config → Config → Prop) :
    Prop where
  load : ∀ c c', L c c' → Agrees Nvs.answer Nvs.answer N (fun d d' => L d d' ∧ SpeaksAlike on d d')
    (c.load sha256) (c'.load sha256)
  create : Agrees Nvs.answer Nvs.answer N C (Config.create sha256) (Config.create sha256)
  destroy : ∀ c c', C c c' → Agrees Nvs.answer Nvs.answer N (fun _ _ => True) c.destroy c'.destroy
  doc : on → ∀ c c', C c c' → c.toDoc = c'.toDoc

section Agreement

variable {A₁ A₂ : ArduinoJson} {N : Nvs → Nvs → Prop}

/-- Programs that agree between like worlds. -/
abbrev Alongside (A₁ A₂ : ArduinoJson) (N : Nvs → Nvs → Prop) {α β : Type} (Q : α → β → Prop)
    (p : ProcessorProgram α) (q : ProcessorProgram β) : Prop :=
  Agrees (World.answer A₁) (World.answer A₂) (Alike A₁ A₂ N) Q p q

theorem parse_alongside (text : Bytes) : Alongside A₁ A₂ N (· = ·) (parse text) (parse text) := by
  intro w w' alike
  refine ⟨alike.docs 0 text, alike.nvs, alike.times, alike.replies, fun n => alike.docs (n + 1), ?_⟩
  simpa [texts, parse, World.answer] using alike.posted

theorem getCurrentTime_alongside : Alongside A₁ A₂ N (· = ·) getCurrentTime getCurrentTime := by
  intro w w' alike
  refine ⟨congrArg Stream'.head alike.times, alike.nvs, ?_, alike.replies, alike.docs, alike.posted⟩
  exact congrArg Stream'.tail alike.times

theorem vTaskDelay_alongside (ticks ticks' : UInt32) :
    Alongside A₁ A₂ N (fun _ _ => True) (vTaskDelay ticks) (vTaskDelay ticks') := by
  intro w w' alike
  refine ⟨trivial, alike.nvs, alike.times, alike.replies, alike.docs, ?_⟩
  simpa [texts, vTaskDelay, World.answer] using alike.posted

theorem post_alongside (client client' : AgentClient) (text : Bytes) :
    Alongside A₁ A₂ N (· = ·) (ask (.post client text)) (ask (.post client' text)) := by
  intro w w' alike
  refine ⟨congrArg Stream'.head alike.replies, alike.nvs, alike.times, ?_, alike.docs, ?_⟩
  · exact congrArg Stream'.tail alike.replies
  · have posted := alike.posted
    simp only [texts] at posted
    simp [texts, World.answer, posted]

theorem onNvs_alongside {α β : Type} {Q : α → β → Prop} {p : NvsProgram α} {q : NvsProgram β}
    (agrees : Agrees Nvs.answer Nvs.answer N Q p q) : Alongside A₁ A₂ N Q (onNvs p) (onNvs q) := by
  intro w w' alike
  obtain ⟨values, nvs⟩ := agrees w.nvs w'.nvs alike.nvs
  rw [World.run_onNvs, World.run_onNvs]
  exact ⟨values, nvs, alike.times, alike.replies, alike.docs, alike.posted⟩

variable (A : ArduinoJson)

theorem sendNetworkMessage_alongside {client client' : AgentClient}
    (agtuuid : client.agtuuid = client'.agtuuid) (msgJson : Bytes) :
    Alongside A₁ A₂ N (· = ·) (sendNetworkMessage A client msgJson)
      (sendNetworkMessage A client' msgJson) := by
  apply Agrees.bind (parse_alongside msgJson)
  rintro doc _ rfl
  rw [agtuuid]
  exact post_alongside client client' _

section Views

variable {sha256 : Sha256} {on : Prop} {L C : Config → Config → Prop}
  (views : Views sha256 on N L C)
include views

theorem processControlForm_alongside (maxSize : Nat) (polling : on) {config config' : Config}
    (debug : config.debug = config'.debug) (formJson : Bytes) :
    Alongside A₁ A₂ N (· = ·) (processControlForm A sha256 maxSize config formJson)
      (processControlForm A sha256 maxSize config' formJson) := by
  apply Agrees.bind (parse_alongside formJson)
  rintro doc _ rfl
  cases controlFormTypeOf (typeOfDoc doc) with
  | GetConfig =>
    apply Agrees.bind (parse_alongside formJson)
    rintro doc _ rfl
    apply Agrees.bind (onNvs_alongside views.create)
    intro saved saved' fresh
    apply Agrees.bind (onNvs_alongside (views.destroy saved saved' fresh))
    intro _ _ _
    apply Agrees.pure
    rw [Config.toJson, Config.toJson, views.doc polling saved saved' fresh]
  | Benchmark =>
    apply Agrees.bind (parse_alongside formJson)
    rintro doc _ rfl
    exact Agrees.pure rfl
  | Unknown =>
    dsimp only
    rw [debug]
    cases config'.debug with
    | true =>
      apply Agrees.bind (parse_alongside formJson)
      rintro doc _ rfl
      exact Agrees.pure rfl
    | false => exact Agrees.pure rfl

omit views in
theorem sendTrace_alongside {config config' : Config} {client client' : AgentClient}
    (uuid : config.uuid = config'.uuid) (agtuuid : client.agtuuid = client'.agtuuid)
    (ticket : NetworkTicket) (type : Bytes) :
    Alongside A₁ A₂ N (fun _ _ => True) (sendTrace A config client ticket type)
      (sendTrace A config' client' ticket type) := by
  unfold sendTrace
  split
  · apply Agrees.bind getCurrentTime_alongside
    rintro hopTime _ rfl
    dsimp only
    rw [uuid]
    apply Agrees.bind (sendNetworkMessage_alongside A agtuuid _)
    intro _ _ _
    exact Agrees.pure trivial
  · exact Agrees.pure trivial

omit views in
theorem ticketToJson_alongside (typeTag : Bytes) (ticket : NetworkTicket) :
    Alongside A₁ A₂ N (· = ·) (ticketToJson A typeTag ticket) (ticketToJson A typeTag ticket) := by
  by_cases empty : ticket.formJson = []
  · simp only [ticketToJson, if_pos empty]
    exact Agrees.pure rfl
  · simp only [ticketToJson, if_neg empty]
    apply Agrees.bind (parse_alongside ticket.formJson)
    rintro doc _ rfl
    exact Agrees.pure rfl

theorem processNetworkMessage_alongside (maxSize : Nat) (polling : on) {config config' : Config}
    {client client' : AgentClient} (uuid : config.uuid = config'.uuid)
    (debug : config.debug = config'.debug) (agtuuid : client.agtuuid = client'.agtuuid)
    (msgJson : Bytes) :
    Alongside A₁ A₂ N (· = ·) (processNetworkMessage A sha256 maxSize config client msgJson)
      (processNetworkMessage A sha256 maxSize config' client' msgJson) := by
  apply Agrees.bind (parse_alongside msgJson)
  rintro doc _ rfl
  cases networkMessageTypeOf (typeOfDoc doc) with
  | TicketRequest =>
    apply Agrees.bind (parse_alongside msgJson)
    rintro doc _ rfl
    apply Agrees.bind (sendTrace_alongside A uuid agtuuid _ _)
    intro _ _ _
    apply Agrees.bind (processControlForm_alongside A views maxSize polling debug _)
    rintro reply _ rfl
    cases reply with
    | none => exact Agrees.pure rfl
    | some formJson =>
      apply Agrees.bind (sendTrace_alongside A uuid agtuuid _ _)
      intro _ _ _
      dsimp only
      rw [uuid]
      apply Agrees.bind (ticketToJson_alongside A _ _)
      rintro text _ rfl
      apply Agrees.bind (sendNetworkMessage_alongside A agtuuid _)
      intro _ _ _
      exact Agrees.pure rfl
  | Ping =>
    apply Agrees.bind (parse_alongside msgJson)
    rintro doc _ rfl
    apply Agrees.bind getCurrentTime_alongside
    rintro timestamp _ rfl
    dsimp only
    rw [uuid]
    apply Agrees.bind (sendNetworkMessage_alongside A agtuuid _)
    intro _ _ _
    exact Agrees.pure rfl
  | _ =>
    apply Agrees.bind (parse_alongside msgJson)
    rintro doc _ rfl
    exact Agrees.pure rfl

theorem processMessages_alongside (maxSize : Nat) (polling : on) {config config' : Config}
    {client client' : AgentClient} (uuid : config.uuid = config'.uuid)
    (debug : config.debug = config'.debug) (agtuuid : client.agtuuid = client'.agtuuid)
    (msgJsons : List Bytes) :
    Alongside A₁ A₂ N (· = ·) (processMessages A sha256 maxSize config client msgJsons)
      (processMessages A sha256 maxSize config' client' msgJsons) := by
  induction msgJsons with
  | nil => exact Agrees.pure rfl
  | cons msgJson rest ih =>
    apply Agrees.bind (processNetworkMessage_alongside A views maxSize polling uuid
      debug agtuuid msgJson)
    rintro r _ rfl
    cases r with
    | none => exact Agrees.pure rfl
    | some _ => exact ih

/-- Two tasks whose configurations have just been loaded, or still are in use. -/
structure AwakeAlike (on : Prop) (L : Config → Config → Prop) (t t' : Task) : Prop where
  loadable : L t.config t'.config
  speaks : SpeaksAlike on t.config t'.config
  agtuuid : t.config.polling = true → t.client.agtuuid = t'.client.agtuuid

/-- Two tasks at the start of an iteration; what they hold matters unless they are idle. -/
structure TasksAlike (on : Prop) (L : Config → Config → Prop) (t t' : Task) : Prop where
  idle : t.idle = t'.idle
  loadable : L t.config t'.config
  awake : t.idle = false → AwakeAlike on L t t'

omit views in
theorem AwakeAlike.sleep {t t' : Task} (h : AwakeAlike on L t t') (idle : Bool) :
    TasksAlike on L { t with idle } { t' with idle } :=
  ⟨rfl, h.loadable, fun _ => ⟨h.loadable, h.speaks, h.agtuuid⟩⟩

theorem refresh_alongside {t t' : Task} (alike : TasksAlike on L t t') :
    Agrees Nvs.answer Nvs.answer N (AwakeAlike on L) (refresh sha256 t) (refresh sha256 t') := by
  apply Agrees.bind (views.load _ _ alike.loadable)
  rintro config config' ⟨loadable, speaks⟩
  apply Agrees.pure
  exact ⟨loadable, speaks, fun polling => (speaks.uuid polling).2⟩

theorem wake_alongside {t t' : Task} (alike : TasksAlike on L t t') :
    Alongside A₁ A₂ N (AwakeAlike on L) (wake sha256 t) (wake sha256 t') := by
  unfold wake
  rw [← alike.idle]
  cases idle : t.idle with
  | true =>
    apply Agrees.bind (onNvs_alongside (refresh_alongside views alike))
    intro t t' awake
    apply Agrees.bind (vTaskDelay_alongside _ _)
    intro _ _ _
    exact Agrees.pure awake
  | false => exact Agrees.pure (alike.awake idle)

theorem iteration_alongside (maxSize : Nat) {t t' : Task} (alike : TasksAlike on L t t') :
    Alongside A₁ A₂ N (Option.Rel (TasksAlike on L)) (iteration A sha256 maxSize t)
      (iteration A sha256 maxSize t') := by
  apply Agrees.bind (wake_alongside views alike)
  intro t t' awake
  dsimp only
  rw [← awake.speaks.polling]
  cases polling : t.config.polling with
  | false => exact Agrees.pure (.some (awake.sleep true))
  | true =>
    obtain ⟨polls, uuid⟩ := awake.speaks.uuid polling
    have request : ∀ time, pollRequest t.config time = pollRequest t'.config time := fun time => by
      rw [pollRequest, pollRequest, uuid]
    apply Agrees.bind getCurrentTime_alongside
    rintro timestamp _ rfl
    rw [request]
    apply Agrees.bind (sendNetworkMessage_alongside A (awake.agtuuid polling) _)
    rintro reply _ rfl
    split
    · exact Agrees.pure (.some (awake.sleep true))
    · apply Agrees.bind (parse_alongside reply)
      rintro doc _ rfl
      apply Agrees.bind (processMessages_alongside A views maxSize polls uuid awake.speaks.debug
        (awake.agtuuid polling) _)
      rintro r _ rfl
      cases r with
      | none => exact Agrees.pure .none
      | some _ => exact Agrees.pure (.some (awake.sleep _))

theorem loop_alongside (maxSize n : Nat) {t t' : Task} (alike : TasksAlike on L t t') :
    Alongside A₁ A₂ N (Option.Rel (TasksAlike on L)) (loop A sha256 maxSize n t)
      (loop A sha256 maxSize n t') := by
  induction n generalizing t t' with
  | zero => exact Agrees.pure (.some alike)
  | succ n ih =>
    apply Agrees.bind (iteration_alongside A views maxSize alike)
    intro r r' related
    cases related with
    | none => exact Agrees.pure .none
    | some alike => exact ih alike

end Views

end Agreement

end Stembot
