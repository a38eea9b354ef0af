import Stembot.Firmware.Stack
import Stembot.Library.Logs
import Stembot.Processor.Identity

/-!
# What the firmware says on the wire

On devices that meet no fault, with any HTTP library: the requests are the posts
of the task, each readable with the key that was loaded last, and naming the agent
that was configured.
-/

namespace Stembot

open Library Program

/-- No cipher call fails and no parse is cut short. -/
structure Board.Sound {σ : Type} (b : Board σ) : Prop where
  idle : b.link.psa.Idle
  faultless : b.link.psa.Faultless
  parses : ∀ n, b.failures n = none

/-- A post is conveyed; nothing else reaches the HTTP library. -/
def Conveyed (P : Psa) : TaskCall → List HttpAnswer → Prop
  | ⟨.post client text, reply⟩, es => Conveys P client text reply es
  | _, es => es = []

section Steps

variable {σ : Type} {A : ArduinoJson} {P : Psa} {h : HttpLibrary σ}

theorem Link.run_faultless {α : Type} (p : TransportProgram α) {l : Link σ}
    (faultless : l.psa.Faultless) :
    (p.run (Link.answer P h) l).2.psa.Faultless := by
  refine run_keeps (I := fun l : Link σ => l.psa.Faultless) (fun op l faultless => ?_) p faultless
  cases op with
  | psa op => exact faultless.answer op
  | http op => exact faultless

/-- One request of the task to its devices. -/
theorem serve_conveys (op : ProcessorOp) {b : Board σ} (sound : b.Sound) :
    let served := Board.serve A P h op b
    served.2.Sound ∧ ∃ added, served.2.link.calls = b.link.calls ++ added ∧
      Conveyed P ⟨op, served.1⟩ added ∧ Honest A ⟨op, served.1⟩ := by
  intro served
  cases op with
  | nvs op =>
    exact ⟨⟨sound.idle, sound.faultless, sound.parses⟩, [], (List.append_nil _).symm, rfl, trivial⟩
  | currentTime =>
    exact ⟨⟨sound.idle, sound.faultless, sound.parses⟩, [], (List.append_nil _).symm, rfl, trivial⟩
  | delay _ =>
    exact ⟨⟨sound.idle, sound.faultless, sound.parses⟩, [], (List.append_nil _).symm, rfl, trivial⟩
  | deserializeJson text =>
    have none : b.failures.head = none := sound.parses 0
    refine ⟨⟨sound.idle, sound.faultless, fun n => sound.parses (n + 1)⟩, [],
      (List.append_nil _).symm, rfl, ?_⟩
    change World.parseAs A b.failures.head text = _
    rw [none]
    rfl
  | post client text =>
    have onward : served = _ := Board.run_onTransport A P h (Transport.postEncrypted client text) b
    obtain ⟨added, calls, asked, idle, -, -, performed, returned⟩ :=
      run_postEncrypted (P := P) (h := h) sound.idle client text
    have faultless := Link.run_faultless (P := P) (h := h) (Transport.postEncrypted client text)
      sound.faultless
    have later := PsaDevice.Faultless.run (P := P) sound.faultless
      (Cipher.aesEaxEncrypt client.key text)
    rw [onward]
    refine ⟨⟨idle, faultless, sound.parses⟩, added, calls, ?_, trivial⟩
    exact conveys_of_ok (PsaDevice.outcome_succeeds sound.faultless 2)
      (PsaDevice.outcome_succeeds later 1).of_cons
      asked performed returned

end Steps

/-- A request that speaks for a configuration: it goes to the peer, can be read with the key, and
names the agent as source and as last hop. -/
def HttpRequest.SpeaksFor (request : HttpRequest) (A : ArduinoJson) (P : Psa) (c : Config) : Prop :=
  request.url = cstr c.peerUrl ∧ ∃ text, request.Bears P c.key text ∧
    (A.read text).get (bytes "src") = .str c.uuid ∧ (A.read text).get (bytes "isrc") = .str c.uuid

section Runs

variable {A : ArduinoJson} {P : Psa} {sha256 : Sha256} {maxSize : Nat}

/-- What a lap performs speaks for the configuration it uses. -/
theorem Lap.Runs.speaks (lawful : A.Lawful) {lap : Lap} {r : Option Task}
    (runs : lap.Runs A sha256 maxSize r) (identity : lap.awake.client = lap.awake.config.client)
    {added : List (List HttpAnswer)}
    (conveyed : List.Forall₂ (fun e es => Conveyed P e es ∧ Honest A e) lap.calls added)
    {es : List HttpAnswer} (member : es ∈ added) {posted : Bool × HttpRequest}
    (performed : posted ∈ (account es).performed) :
    posted.1 = true ∧ posted.2.SpeaksFor A P lap.awake.config := by
  obtain ⟨done, e, rest, split, holds, -⟩ := exists_of_forall₂ conveyed member
  obtain ⟨op, reply⟩ := e
  cases op with
  | post client text =>
    obtain ⟨poll, done', rfl, inPoll, pollRuns⟩ := runs.poll_of_post split
    have conveys : Conveys P client text reply es := holds
    obtain ⟨rfl, -⟩ := pollRuns.identified.of_post inPoll
    cases init : (account es).reported.init with
    | false =>
      rw [(conveys.unsent init).1] at performed
      cases performed
    | true =>
      obtain ⟨request, only, url, bears⟩ := conveys.sent init
      rw [only] at performed
      obtain rfl := List.mem_singleton.mp performed
      have honest : ∀ e ∈ done', Honest A e := by
        intro e inside
        have call : e ∈ lap.calls := by
          rw [split]
          exact List.mem_append_left _ (List.mem_append_right _ inside)
        obtain ⟨-, -, -, -, -, relied⟩ := exists_of_forall₂ conveyed.flip call
        exact relied
      have names := pollRuns.names lawful inPoll honest
      rw [identity] at url bears names
      exact ⟨rfl, url, text, bears, names⟩
  | _ =>
    obtain rfl : es = [] := holds
    cases performed

end Runs

/-- The firmware on devices that meet no fault, whatever the HTTP library does: lap by lap, each
post of the task asks for a client and is one request that bears its text, or none when no client
can be made; nothing else goes out; and a reply is taken for one only if it came back encrypted with
the key. What goes out in a lap speaks for the configuration that was loaded last. -/
theorem firmware_speaks {σ : Type} {A : ArduinoJson} (lawful : A.Lawful)
    (P : Psa) (h : HttpLibrary σ) {b : Board σ} (sound : b.Sound)
    (sha256 : Sha256) (maxSize n : Nat) :
    let ran := (firmware A sha256 maxSize n).run (Board.answer A P h) b
    ∃ (config : Config) (laps : List (Lap × List (List HttpAnswer))),
      (∃ calls, (Config.create sha256).Traces calls config) ∧
      Run A sha256 maxSize (.initial config) (laps.map Prod.fst) ran.1 ∧
      Complete n (laps.map Prod.fst) ran.1 ∧
      ran.2.link.calls = b.link.calls ++ (laps.flatMap Prod.snd).flatten ∧
      ∀ before lap added after, laps = before ++ (lap, added) :: after →
        List.Forall₂ (Conveyed P) lap.calls added ∧
        ∃ c, latest none (before.map Prod.fst ++ [lap]) = some c ∧
          ∀ es ∈ added, ∀ posted ∈ (account es).performed, posted.1 = true ∧
          posted.2.SpeaksFor A P c := by
  intro ran
  let program := startProcessor A sha256 maxSize n
  have onward : ran = program.run (Board.serve A P h) b :=
    Board.run_firmware A P h sha256 maxSize n b
  obtain ⟨added, logged, conveyed⟩ := run_logs (fun b : Board σ => b.link.calls)
    (R := fun e es => Conveyed P e es ∧ Honest A e) (fun op b sound => serve_conveys op sound)
    program sound
  have traced := traces_run (Board.serve A P h) program b
  rw [← onward] at logged traced
  generalize program.trace (Board.serve A P h) b = calls at conveyed traced
  obtain ⟨config, creating, looping, created, looped, rfl⟩ := traces_bind.mp traced
  obtain ⟨loading, loading', rfl⟩ := traces_onNvs.mp created
  obtain ⟨laps, rfl, run, complete⟩ := loop_traces looped
  obtain ⟨front, back, rfl, first, rest⟩ := forall₂_append_left conveyed
  have silent : front.flatten = [] := by
    refine List.flatten_eq_nil_iff.mpr fun es member => ?_
    obtain ⟨_, e, _, split, holds, -⟩ := exists_of_forall₂ first member
    have call : e ∈ loading.map byTask := by simp [split]
    obtain ⟨call, -, rfl⟩ := List.mem_map.mp call
    exact holds
  obtain ⟨parts, rfl, rfl, each⟩ := forall₂_flatMap rest
  rw [List.flatten_append, silent, List.nil_append] at logged
  refine ⟨config, parts, ⟨loading, loading'⟩, run, complete, logged, ?_⟩
  rintro before lap added after rfl
  have conveyed' := each (lap, added) (by simp)
  have split : (before ++ (lap, added) :: after).map Prod.fst = before.map Prod.fst ++
      lap :: after.map Prod.fst := by
    simp
  obtain ⟨loaded, identity, r, runs⟩ := run.holds (Task.initial_holds config) split
  refine ⟨conveyed'.imp fun _ _ holds => holds.1, _, loaded, fun es member posted performed => ?_⟩
  exact runs.speaks lawful identity conveyed' member performed

/-- Two laps, each with a post that is conveyed. -/
theorem firmware_speaks_sample :
    let ran := (firmware textLibrary sampleSha256 0 2).run
      (Board.answer textLibrary samplePsa sampleHttp)
      (sampleBoard (sampleEntries sampleUuid sampleKey))
    ∃ laps : List (Lap × List (List HttpAnswer)), laps.length = 2 ∧
      ran.2.link.calls = (laps.flatMap Prod.snd).flatten ∧
      ∀ lap ∈ laps, List.Forall₂ (Conveyed samplePsa) lap.1.calls lap.2 := by
  have sound : (sampleBoard (sampleEntries sampleUuid sampleKey)).Sound :=
    ⟨samplePsaDevice_idle, fun _ => rfl, fun _ => rfl⟩
  have speaks := firmware_speaks textLibrary_lawful samplePsa sampleHttp sound sampleSha256 0 2
  dsimp only at speaks
  obtain ⟨-, laps, -, -, complete, logged, spoken⟩ := speaks
  refine ⟨laps, ?_, logged, ?_⟩
  · rw [← List.length_map Prod.fst]
    exact complete.whole (by decide +kernel)
  · rintro ⟨lap, added⟩ member
    obtain ⟨before, after, split⟩ := List.append_of_mem member
    exact (spoken before lap added after split).1

end Stembot
