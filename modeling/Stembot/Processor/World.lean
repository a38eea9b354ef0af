import Mathlib.Data.Stream.Defs
import Stembot.Processor.Task

/-!
# The task in its surroundings

A world answers every request of the task, and keeps a log of what was parsed,
awaited and posted. Clock readings, replies and parse failures are arbitrary.
-/

namespace Stembot

open Library

inductive Event where
  | parsed (text : Bytes) (error : Bool)
  | delayed (ticks : UInt32)
  | posted (client : AgentClient) (plaintextJson reply : Bytes)

/-- An entry of `failures` replaces the outcome of one parse, as when memory runs out. The reply to
a post that fails is empty. -/
structure World where
  nvs : Nvs
  times : Stream' Decimal
  failures : Stream' (Option Parsed)
  replies : Stream' Bytes
  log : List Event

/-- No parse fails for another reason than its text. -/
def World.Sound (w : World) : Prop := ∀ n, w.failures n = none

namespace World

variable (A : ArduinoJson)

def parseAs (failure : Option Parsed) (text : Bytes) : Parsed :=
  failure.getD (A.deserializeJson text)

def answer : Program.Handler ProcessorOp ProcessorOp.Res World
  | .nvs op, w => ((Nvs.answer op w.nvs).1, { w with nvs := (Nvs.answer op w.nvs).2 })
  | .deserializeJson text, w =>
    (parseAs A w.failures.head text, { w with
      failures := w.failures.tail
      log := w.log ++ [.parsed text (parseAs A w.failures.head text).error] })
  | .currentTime, w => (w.times.head, { w with times := w.times.tail })
  | .delay ticks, w => ((), { w with log := w.log ++ [.delayed ticks] })
  | .post client text, w =>
    (w.replies.head, { w with
      replies := w.replies.tail
      log := w.log ++ [.posted client text w.replies.head] })

/-- Storage calls act on the device alone. -/
theorem run_onNvs {α : Type} (p : NvsProgram α) (w : World) :
    (onNvs p).run (answer A) w =
      ((p.run Nvs.answer w.nvs).1, { w with nvs := (p.run Nvs.answer w.nvs).2 }) := by
  induction p generalizing w with
  | done a => rfl
  | call op next ih => exact ih _ _

end World

/-- A device with these settings, on which nothing fails. -/
def sampleNvs (es : Entries) : Nvs where
  live := Function.update (fun _ _ => none) "config" es
  durable := Function.update (fun _ _ => none) "config" es
  handles _ := none
  opened := 0
  init := .ok
  faults := []

/-- A world that gives these replies, and the empty one after them. -/
def sampleWorld (es : Entries) (replies : List Bytes) : World where
  nvs := sampleNvs es
  times _ := .ofInt 0
  failures _ := none
  replies n := replies.getD n []
  log := []

/-- Settings with polling on. -/
def sampleEntries (agtuuid : CString) (key : Key) : Entries
  | "agtuuid" => some (.str agtuuid)
  | "key" => some (.blob key.toList)
  | "polling" => some (.scalar .u8 1)
  | _ => none

def sampleUuid : CString := ⟨cstr (bytes "a"), zero_notMem_cstr _⟩

def sampleSha256 : Sha256 := fun _ => some sampleKey

/-- The texts posted, each with the reply to it. -/
def posts (log : List Event) : List (Bytes × Bytes) :=
  log.filterMap fun
    | .posted _ text reply => some (text, reply)
    | _ => none

@[simp] theorem posts_nil : posts [] = [] := rfl

@[simp] theorem posts_append (es es' : List Event) : posts (es ++ es') = posts es ++ posts es' :=
  List.filterMap_append

@[simp] theorem posts_parsed (text : Bytes) (error : Bool) (es : List Event) :
    posts (.parsed text error :: es) = posts es := rfl

@[simp] theorem posts_posted (client : AgentClient) (text reply : Bytes) :
    posts [.posted client text reply] = [(text, reply)] := rfl

@[simp] theorem posts_delayed (ticks : UInt32) : posts [.delayed ticks] = [] := rfl

/-- The texts that were handed to the encryption step. -/
def texts (log : List Event) : List Bytes := (posts log).map Prod.fst

end Stembot
