import Stembot.Models.TypeDetection
import Stembot.Processor.Dispatch
import Stembot.Processor.Laps

/-!
# Whole runs of the task

In a run without an escaping exception every lap that polls is a round: the poll,
and the answers to the messages of its reply.
-/

namespace Stembot

open Library Program

/-- The texts posted by these calls, each with the reply to it. -/
def exchanged (calls : List TaskCall) : List (Bytes × Bytes) :=
  calls.filterMap fun
    | ⟨.post _ text, reply⟩ => some (text, reply)
    | _ => none

/-- The messages that a document lists. -/
def listed (doc : Json) : List Json := (doc.get (bytes "messages")).items

/-- The first text of a lap that polls is the poll; what follows it answers the messages read out of
the reply. Any other lap posts nothing. -/
structure Lap.Answered (A : ArduinoJson) (lap : Lap) : Prop where
  polls : lap.poll.isSome = lap.awake.config.polling
  silent : lap.poll = none → exchanged lap.calls = []
  round : ∀ poll, lap.poll = some poll → ∃ request answers,
    exchanged lap.calls = (request, poll.reply) :: answers ∧
    networkMessageType A request = .MessagesRequest ∧
    answers.map (fun post => answerOf A post.1) = (listed (A.read poll.reply)).flatMap given

section Rounds

variable {A : ArduinoJson} {sha256 : Sha256} {maxSize : Nat}

theorem Lap.Runs.polls {lap : Lap} {r : Option Task} (runs : lap.Runs A sha256 maxSize r) :
    lap.poll.isSome = lap.awake.config.polling := by
  cases runs with
  | off _ off => exact off.symm
  | polled _ on _ => exact on.symm

theorem loop_speaks (lawful : A.Lawful) (sha256 : Sha256) (maxSize n : Nat) (t : Task) :
    Says A (loop A sha256 maxSize n t) fun _ es => Excused es := by
  induction n generalizing t with
  | zero => exact speaks_pure nofun
  | succ n ih =>
    apply Program.Emits.bind (iteration_speaks lawful sha256 maxSize t)
    rintro r es ⟨excused, -⟩
    cases r with
    | none => exact speaks_pure (by simpa using excused)
    | some t => exact (ih t).mono fun _ _ later => excused.append later

end Rounds

/-- The task before its first iteration. -/
def sampleTask : Task := ⟨Config.blank, ⟨[], .replicate 32 0, []⟩, true⟩

def replying (reply : String) : World :=
  sampleWorld (sampleEntries (literal "a") sampleKey) [bytes reply]

/-- The sample world's run of one poll with this reply. -/
def samplePoll (reply : String) : Option Task × World :=
  (loop textLibrary sampleSha256 0 1 sampleTask).run (World.answer textLibrary) (replying reply)

/-- A ping and a traced ticket. -/
def sampleReply : String := "\x7b\"messages\":[\x7b\"type\":\"ping\",\"src\":\"b\"\x7d," ++
  "\x7b\"type\":\"ticket_request\",\"tracing\":true\x7d]\x7d"

end Stembot
