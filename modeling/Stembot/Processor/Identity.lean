import Stembot.Processor.Sending
import Stembot.Processor.World

/-!
# Every message bears the identity loaded last

Configuration and client are refreshed together, so what a lap posts names the
sender, goes to the url and is encrypted with the key of one load.
-/

namespace Stembot

open Library Program

section Identity

variable {A : ArduinoJson} (lawful : A.Lawful) {sha256 : Sha256} {maxSize : Nat}
include lawful

theorem processMessages_sends (config : Config) (client : AgentClient) {msgJsons : List Bytes}
    (h : ∀ s ∈ msgJsons, (A.read s).Within nestingLimit) :
    Sends A (processMessages A sha256 maxSize config client msgJsons) fun _ es =>
      ∃ docs, Posts A client docs es ∧ FromSender config.uuid docs := by
  induction msgJsons with
  | nil => exact Ensures.pure ⟨[], .nil, by simp [FromSender]⟩
  | cons msgJson rest ih =>
    refine (processNetworkMessage_sends client lawful sha256 maxSize config
      (h msgJson List.mem_cons_self)).bind ?_
    rintro r es ⟨docs, posted, source, -⟩
    cases r with
    | none => exact Ensures.pure ⟨docs, by simpa using posted, source⟩
    | some _ =>
      refine (ih fun s member => h s (List.mem_cons_of_mem _ member)).mono ?_
      rintro r es' ⟨docs', posted', source'⟩
      exact ⟨docs ++ docs', posted.append posted', source.append source'⟩

/-- The messages of a reply are texts that can be read back. -/
theorem messageJsons_within (reply : Bytes) :
    ∀ s ∈ (NetworkMessagesResponse.ofDoc A (A.read reply)).messageJsons,
      (A.read s).Within nestingLimit := by
  intro s member
  obtain ⟨m, item, rfl⟩ := List.mem_map.mp member
  have within : m.Within (nestingLimit - 1) :=
    Json.Within.items (Json.Within.get (lawful.doc_within reply) _) m item
  rw [lawful.read_serialize (within.mono (by decide))]
  exact within.mono (by decide)

theorem sendPoll_sends (t : Task) :
    Sends A (sendPoll A t) fun _ es => ∃ docs, Posts A t.client docs es ∧
      FromSender t.config.uuid docs := by
  refine (getCurrentTime_sends t.client).bind ?_
  intro timestamp es silent
  let request := pollRequest t.config timestamp
  refine (sendNetworkMessage_sends t.client lawful request.toDoc_within).mono ?_
  intro _ es' posted
  exact ⟨[request.toDoc], silent.append posted, .single request.toDoc_src⟩

/-- What a poll and the answers to its reply post. -/
theorem Poll.Runs.posts {poll : Poll} {t : Task} {r : Option Task}
    (runs : poll.Runs A sha256 maxSize t r) (honest : ∀ e ∈ poll.calls, Honest A e) :
    ∃ docs, Posts A t.client docs poll.calls ∧ FromSender t.config.uuid docs := by
  cases runs with
  | unanswered sending =>
    obtain ⟨docs, posted, source⟩ := sendPoll_sends lawful t _ _ sending
      fun e member => honest e (List.mem_append_left _ member)
    exact ⟨docs, by simpa [Poll.calls] using posted, source⟩
  | @answered sending parsing answering reply doc _ sent _ parsed answered =>
    obtain ⟨docs, posted, source⟩ := sendPoll_sends lawful t _ _ sent
      fun e member => honest e (List.mem_append_left _ member)
    obtain ⟨rfl, silent⟩ := parse_sends t.client reply _ _ parsed
      fun e member => honest e (List.mem_append_right _ (List.mem_append_left _ member))
    obtain ⟨docs', posted', source'⟩ := processMessages_sends lawful t.config t.client
      (messageJsons_within lawful reply) _ _ answered
      fun e member => honest e (List.mem_append_right _ (List.mem_append_right _ member))
    exact ⟨docs ++ docs', posted.append (silent.append posted'), source.append source'⟩

/-- A posted text names the sender, as source and as the last hop. -/
theorem signed_names (client : AgentClient) {d : Json} (h : d.Within nestingLimit) {src : Bytes}
    (source : d.get (bytes "src") = .str src) :
    (A.read (signed A client d)).get (bytes "src") = .str src ∧
      (A.read (signed A client d)).get (bytes "isrc") = .str client.agtuuid := by
  have writable : d.Writable := by
    cases d with
    | obj | null => trivial
    | _ => cases source
  rw [read_signed client lawful h, Json.get_set writable, Json.get_set writable,
    if_neg (by decide), if_pos rfl]
  exact ⟨source, rfl⟩

/-- What is posted before a parse is cut short names the sender. -/
theorem Poll.Runs.names {poll : Poll} {t : Task} {r : Option Task}
    (runs : poll.Runs A sha256 maxSize t r) {done rest : List TaskCall} {client : AgentClient}
    {text reply : Bytes} (split : poll.calls = done ++ ⟨.post client text, reply⟩ :: rest)
    (honest : ∀ e ∈ done, Honest A e) :
    (A.read text).get (bytes "src") = .str t.config.uuid ∧
      (A.read text).get (bytes "isrc") = .str t.client.agtuuid := by
  have sofar : ∀ e ∈ done ++ [⟨.post client text, reply⟩], Honest A e := by
    intro e member
    rcases List.mem_append.mp member with before | here
    · exact honest e before
    · rw [List.mem_singleton.mp here]
      trivial
  have whole : poll.calls = (done ++ [⟨.post client text, reply⟩]) ++ rest := by
    rw [split, List.append_assoc, List.singleton_append]
  -- The same would have been posted so far if no later parse had been cut short either.
  obtain ⟨rest', r', traced, relied⟩ :=
    (poll_traces.mpr ⟨poll, rfl, runs⟩).redirect (honest_answerable A) whole sofar
  obtain ⟨poll', same, runs'⟩ := poll_traces.mp traced
  rw [same] at relied
  obtain ⟨docs, posted, source⟩ := runs'.posts lawful relied
  have sent : (client, text) ∈ outgoing poll'.calls := by
    rw [← same]
    simp [outgoing]
  rw [posted.texts] at sent
  obtain ⟨d, posts, same⟩ := List.mem_map.mp sent
  obtain ⟨-, rfl⟩ := Prod.mk.inj same
  exact signed_names lawful t.client (posted.within d posts) (source d posts)

end Identity

section Posted

variable {A : ArduinoJson} {sha256 : Sha256} {maxSize : Nat}

/-- Nothing is posted before the task is awake. -/
theorem Lap.Runs.outgoing_waking {lap : Lap} {r : Option Task}
    (runs : lap.Runs A sha256 maxSize r) :
    outgoing lap.waking = [] := by
  rcases wake_traces runs.wakes with ⟨-, silent, -⟩ | ⟨-, calls, -, waking, -⟩
  · simp [silent]
  · rw [waking, outgoing_append, outgoing_byTask]
    rfl

theorem post_behind {first second done rest : List TaskCall} {client : AgentClient}
    {text reply : Bytes} (silent : outgoing first = [])
    (split : first ++ second = done ++ ⟨.post client text, reply⟩ :: rest) :
    ∃ done', done = first ++ done' ∧ second = done' ++ ⟨.post client text, reply⟩ :: rest := by
  rcases List.append_eq_append_iff.mp split with behind | ⟨more, before, later⟩
  · exact behind
  · cases more with
    | nil => exact ⟨[], by simpa using before.symm, by simpa using later.symm⟩
    | cons e more =>
      obtain ⟨rfl, -⟩ := List.cons.inj later
      simp [before, outgoing] at silent

/-- What a lap posts, its poll posts. -/
theorem Lap.Runs.poll_of_post {lap : Lap} {r : Option Task} (runs : lap.Runs A sha256 maxSize r)
    {done rest : List TaskCall} {client : AgentClient} {text reply : Bytes}
    (split : lap.calls = done ++ ⟨.post client text, reply⟩ :: rest) :
    ∃ (poll : Poll) (done' : List TaskCall), done = lap.waking ++ done' ∧
      poll.calls = done' ++ ⟨.post client text, reply⟩ :: rest ∧
        poll.Runs A sha256 maxSize lap.awake r := by
  obtain ⟨done', rfl, inPoll⟩ := post_behind runs.outgoing_waking split
  cases runs with
  | off _ _ => simp at inPoll
  | polled _ _ polled => exact ⟨_, done', rfl, inPoll, polled⟩

end Posted

/-- In every run, what is posted goes to the url and is encrypted with the key of the configuration
that the task loaded last. It was made of a message that names that configuration's agent as source.
What the parse of this message left is posted, with the agent as last hop; both are named in it
unless this parse was cut short, and so they are where none was cut short in the lap before. -/
theorem posts_bear_latest {A : ArduinoJson} (lawful : A.Lawful) {sha256 : Sha256} {maxSize n : Nat}
    {config : Config} {calls : List TaskCall} {r : Option Task}
    (ran : (loop A sha256 maxSize n (.initial config)).Traces calls r) :
    ∃ laps : List Lap, calls = laps.flatMap Lap.calls ∧
      Run A sha256 maxSize (.initial config) laps r ∧
      Complete n laps r ∧ ∀ before lap after, laps = before ++ lap :: after →
        outgoing lap.waking = [] ∧
        ∃ c, latest none (before ++ [lap]) = some c ∧
          ∀ done client text reply rest, lap.calls = done ++ ⟨.post client text, reply⟩ :: rest →
            let Named := (A.read text).get (bytes "src") = .str c.uuid ∧
              (A.read text).get (bytes "isrc") = .str c.uuid
            client = { url := c.peerUrl, key := c.key, agtuuid := c.uuid } ∧
            (∃ d parsed done', done = done' ++ [⟨.deserializeJson (A.serializeJson d), parsed⟩] ∧
              d.get (bytes "src") = .str c.uuid ∧ text = patchIsrc A parsed.doc c.uuid ∧
              (parsed.doc = d → d.Within nestingLimit → Named)) ∧
            ((∀ e ∈ done, Honest A e) → Named) := by
  obtain ⟨laps, made, run, complete⟩ := loop_traces ran
  refine ⟨laps, made, run, complete, ?_⟩
  intro before lap after split
  obtain ⟨loaded, identity, r', runs⟩ := run.holds (Task.initial_holds config) split
  refine ⟨runs.outgoing_waking, _, loaded, ?_⟩
  intro done client text reply rest posted Named
  obtain ⟨poll, inLap, rfl, inPoll, pollRuns⟩ := runs.poll_of_post posted
  obtain ⟨rfl, d, parsed, done', rfl, named, made⟩ := pollRuns.identified.of_post inPoll
  have uuid : lap.awake.client.agtuuid = lap.awake.config.uuid := by rw [identity]; rfl
  rw [uuid] at made
  refine ⟨identity, ⟨d, parsed, lap.waking ++ done', by rw [List.append_assoc], named, made, ?_⟩,
    ?_⟩
  · intro whole within
    have sent : text = signed A lap.awake.client d := by rw [made, whole, signed, patchIsrc, uuid]
    have names := signed_names lawful lap.awake.client within named
    rw [← sent, uuid] at names
    exact names
  · intro honest
    have names := pollRuns.names lawful inPoll fun e member =>
      honest e (List.mem_append_right _ member)
    rw [uuid] at names
    exact names

theorem posts_bear_latest_sample :
    let run := loop textLibrary sampleSha256 0 2 (.initial Config.blank)
    let calls := run.trace (World.answer textLibrary)
      (sampleWorld (sampleEntries sampleUuid sampleKey)
        [bytes "\x7b\"messages\":[\x7b\"type\":\"ping\"\x7d]\x7d"])
    ∃ laps : List Lap, calls = laps.flatMap Lap.calls ∧ laps.length = 2 ∧
      ∀ before lap after, laps = before ++ lap :: after →
        ∃ c, latest none (before ++ [lap]) = some c ∧
          ∀ done client text reply rest, lap.calls = done ++ ⟨.post client text, reply⟩ :: rest →
            client.url = c.peerUrl ∧ client.key = c.key := by
  intro run calls
  obtain ⟨laps, made, -, complete, identified⟩ :=
    posts_bear_latest textLibrary_lawful (traces_run (World.answer textLibrary) run _)
  refine ⟨laps, made, complete.whole (by decide +kernel), fun before lap after split => ?_⟩
  obtain ⟨-, c, loaded, posted⟩ := identified before lap after split
  refine ⟨c, loaded, fun done client text reply rest split => ?_⟩
  rw [(posted done client text reply rest split).1]
  exact ⟨rfl, rfl⟩

/-- The texts that the sample task posts in its first lap. -/
def sampleTexts (faults : List Bool) (failures : Stream' (Option Parsed)) (reply : String) :
    List Bytes :=
  let world := sampleWorld (sampleEntries sampleUuid sampleKey) [bytes reply]
  let run := loop textLibrary sampleSha256 0 1 (.initial Config.blank)
  (outgoing (run.trace (World.answer textLibrary)
    { world with nvs := { world.nvs with faults }, failures })).map Prod.snd

/-- A `get_config` form loads a configuration of its own, and the response that carries it still
names the agent loaded before. A message whose parse is cut short names no source. -/
theorem later_load_is_not_borne :
    ((sampleTexts (List.replicate 10 false ++ [true]) (fun _ => none)
        ("\x7b\"messages\":[\x7b\"type\":\"ticket_request\"," ++
          "\"form\":\x7b\"type\":\"get_config\"\x7d\x7d]\x7d")).getLast?.map
      fun text =>
        let doc := textLibrary.read text
        let reported := ((doc.get (bytes "form")).get (bytes "config")).get (bytes "agtuuid")
        (orStr (doc.get (bytes "src")) [], (orStr reported []).take 36)) =
      some (bytes "a", Config.defaultUuid) ∧
    ((sampleTexts [] (fun _ => some ⟨true, .null⟩) "").map fun text =>
        let doc := textLibrary.read text
        (orStr (doc.get (bytes "src")) [], orStr (doc.get (bytes "isrc")) [])) =
      [([], bytes "a")] := by
  decide +kernel

end Stembot
