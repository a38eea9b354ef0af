import Stembot.Processor.Sending

/-!
# Benchmark replies

The requested size is converted to 32 bits before a string is made of it, so a
reply is as requested exactly for the sizes that survive this and fit.
-/

namespace Stembot

open Library Program

/-- The sizes of the strings that can be made. -/
def Served (maxSize : Nat) (n : Int64) : Prop := 0 ≤ n.toInt ∧ n.toInt ≤ maxSize

/-- A reply is as requested: without a payload where none was asked for, with as many zeros as it
reports, or with an error in place of a payload that cannot be made. -/
def AsRequested (maxSize : Nat) (requested : Option Int64) (reply : Benchmark) : Prop :=
  reply.inboundSize = requested ∧
    match requested with
    | none => reply.payload = none
    | some n =>
      (0 ≤ n.toInt ∧ reply.payload = some (List.replicate n.toInt.toNat 48)) ∨
        (¬ Served maxSize n ∧ reply.payload = none ∧ reply.error.isSome)

section Payload

variable {maxSize : Nat}

theorem zeros_of_served (target : maxSize < 2 ^ 32) {n : Int64} (served : Served maxSize n) :
    zeros maxSize n = some (List.replicate n.toInt.toNat 48) := by
  have count : n.toInt % 2 ^ 32 = n.toInt := Int.emod_eq_of_lt served.1 (by have := served.2; omega)
  have fits : ¬ n.toInt.toNat > maxSize := by
    have := served.2
    omega
  rw [zeros, count]
  exact if_neg fits

/-- A string of the size asked for comes out only for a size that is served. -/
theorem served_of_zeros {n : Int64} (nonneg : 0 ≤ n.toInt)
    (made : zeros maxSize n = some (List.replicate n.toInt.toNat 48)) : Served maxSize n := by
  simp only [zeros] at made
  split at made
  · cases made
  · have lengths := congrArg List.length (Option.some.inj made)
    simp only [List.length_replicate] at lengths
    refine ⟨nonneg, ?_⟩
    omega

theorem fillPayload_of_served (target : maxSize < 2 ^ 32) (form : Benchmark)
    (served : ∀ n, form.inboundSize = some n → Served maxSize n) :
    fillPayload maxSize form = some { form with
      payload := form.inboundSize.map fun n => List.replicate n.toInt.toNat 48 } := by
  unfold fillPayload
  cases requested : form.inboundSize with
  | none => rfl
  | some n => simp [zeros_of_served target (served n requested)]

/-- The payload never comes out short, and no error is ever reported: a reply is as requested only
if its size is served. -/
theorem fillPayload_asRequested_iff (target : maxSize < 2 ^ 32) (form : Benchmark) :
    (∃ reply, fillPayload maxSize form = some reply ∧ AsRequested maxSize form.inboundSize reply) ↔
      ∀ n, form.inboundSize = some n → Served maxSize n := by
  constructor
  · rintro ⟨reply, filled, -, asRequested⟩ n requested
    simp only [fillPayload, requested] at filled asRequested
    obtain ⟨payload, made, rfl⟩ := Option.map_eq_some_iff.mp filled
    rcases asRequested with ⟨nonneg, same⟩ | ⟨-, none, -⟩
    · rw [Option.some.inj same] at made
      exact served_of_zeros nonneg made
    · cases none
  · intro served
    refine ⟨_, fillPayload_of_served target form served, rfl, ?_⟩
    cases requested : form.inboundSize with
    | none => rfl
    | some n => exact .inl ⟨(served n requested).1, rfl⟩

end Payload

/-- A benchmark form is answered, and its reply carries the amount of data it asks for, exactly if
that amount is not negative and a string of it can be made. -/
theorem benchmark_asRequested_iff {A : ArduinoJson} (lawful : A.Lawful)
    {sha256 : Sha256} {maxSize : Nat} (target : maxSize < 2 ^ 32) {config : Config} {form : Json}
    (within : form.Within nestingLimit)
    (type : controlFormType A (A.serializeJson form) = .Benchmark) {calls : List TaskCall}
    {r : Option Bytes}
    (ran : (processControlForm A sha256 maxSize config (A.serializeJson form)).Traces calls r)
    (honest : ∀ e ∈ calls, Honest A e) :
    let requested := (Benchmark.fromJson A (A.serializeJson form)).inboundSize
    (∃ reply, r = some reply ∧ AsRequested maxSize requested (Benchmark.fromJson A reply)) ↔
      ∀ n, requested = some n → 0 ≤ n.toInt ∧ n.toInt ≤ maxSize := by
  intro requested
  have read : A.read (A.serializeJson form) = form := lawful.read_serialize within
  have asked : requested = (Benchmark.ofDoc A form).inboundSize := by
    simp only [requested, Benchmark.fromJson, read]
  rw [controlFormType, read] at type
  have text : A.serializeJson form = formTextOf A form := by
    rw [formTextOf, textUnlessNull_of_ne]
    · rfl
    · rintro rfl
      cases type
  rw [text] at ran
  obtain ⟨-, out, handled, rfl⟩ :=
    processControlForm_sends config.client lawful sha256 maxSize config within calls r ran honest
  rw [handled.of_benchmark type, asked]
  refine Iff.trans ?_ (fillPayload_asRequested_iff target (Benchmark.ofDoc A form))
  have decoded : ∀ reply : Benchmark, Benchmark.fromJson A (formTextOf A reply.toDoc) = reply := by
    intro reply
    rw [Benchmark.fromJson, read_formTextOf lawful reply.toDoc_within, reply.ofDoc_toDoc lawful]
  constructor
  · rintro ⟨_, sent, asRequested⟩
    obtain ⟨_, made, rfl⟩ := Option.map_eq_some_iff.mp sent
    obtain ⟨reply, filled, rfl⟩ := Option.map_eq_some_iff.mp made
    rw [decoded] at asRequested
    exact ⟨reply, filled, asRequested⟩
  · rintro ⟨reply, filled, asRequested⟩
    refine ⟨formTextOf A reply.toDoc, by rw [filled]; rfl, ?_⟩
    rw [decoded]
    exact asRequested

/-- The sample world's answer to a benchmark form. -/
def sampleBenchmark (maxSize : Nat) (n : Int64) : Option Bytes :=
  ((processControlForm textLibrary sampleSha256 maxSize Config.blank
    (Benchmark.toJson textLibrary { inboundSize := some n })).run (World.answer textLibrary)
      (sampleWorld (fun _ => none) [])).1

theorem benchmark_asRequested_sample :
    ∃ reply, sampleBenchmark 100 3 = some reply ∧
      AsRequested 100 (some 3) (Benchmark.fromJson textLibrary reply) := by
  let form : Benchmark := { inboundSize := some 3 }
  let program := processControlForm textLibrary sampleSha256 100 Config.blank
    (form.toJson textLibrary)
  have read : textLibrary.read (form.toJson textLibrary) = form.toDoc :=
    textLibrary_lawful.read_serialize form.toDoc_within
  have type : controlFormType textLibrary (form.toJson textLibrary) = .Benchmark := by
    rw [controlFormType, read, form.typeOfDoc_toDoc]
  have decoded : Benchmark.fromJson textLibrary (form.toJson textLibrary) = form := by
    rw [Benchmark.fromJson, read, form.ofDoc_toDoc textLibrary_lawful]
  have answered :=
    (benchmark_asRequested_iff textLibrary_lawful (show 100 < 2 ^ 32 by decide) form.toDoc_within
    type (traces_run (World.answer textLibrary) program (sampleWorld (fun _ => none) []))
    (World.Sound.honest program fun _ => rfl)).mpr
  rw [← Benchmark.toJson, decoded] at answered
  refine answered ?_
  rintro n ⟨⟩
  decide

/-- The payload for one byte more than 2^32 is one byte long, and minus one byte ends the task. -/
theorem benchmark_size_is_truncated :
    ((sampleBenchmark 1000000 4294967297).map fun reply =>
        let form := Benchmark.fromJson textLibrary reply
        (form.inboundSize, form.payload, form.error)) =
      some (some 4294967297, some (bytes "0"), none) ∧
    sampleBenchmark 1000000 (-1) = none := by
  decide +kernel

end Stembot
