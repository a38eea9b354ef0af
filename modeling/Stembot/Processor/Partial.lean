import Stembot.Processor.Rounds
import Stembot.Processor.SideBySide

/-!
# Documents that were cut off

No error code of a parse is looked at: the task acts on the document that is
left. What can be cut off, short of memory running out, is the reply itself.
-/

namespace Stembot

open Library Program

section Unseen

variable (sha256 : Sha256)

/-- One storage is alike to itself, and its configurations speak alike. -/
theorem same_views : Views sha256 True (· = ·) (· = ·) (· = ·) where
  load := by
    rintro c _ rfl w _ rfl
    exact ⟨⟨rfl, rfl, rfl, fun _ => ⟨trivial, rfl⟩, rfl⟩, rfl⟩
  create := Agrees.rfl _
  destroy := by
    rintro c _ rfl w _ rfl
    exact ⟨trivial, rfl⟩
  doc := by
    rintro - c _ rfl
    rfl

theorem TasksAlike.refl (t : Task) : TasksAlike True (· = ·) t t :=
  ⟨rfl, rfl, fun _ => ⟨rfl, ⟨rfl, rfl, fun _ => ⟨trivial, rfl⟩, rfl⟩, fun _ => rfl⟩⟩

end Unseen

/-- The outcome of a parse that is made next. -/
def World.parsesNext (A : ArduinoJson) (w : World) (text : Bytes) : Parsed :=
  World.parseAs A w.failures.head text

/-- A message whose type does not read as one of the two is answered by nothing, however the
parses go. -/
theorem unrecognised_silent (A : ArduinoJson) (sha256 : Sha256) (maxSize : Nat) (config : Config)
    (client : AgentClient) (msgJson : Bytes) (w : World)
    (ticket : typeOfDoc (w.parsesNext A msgJson).doc ≠ bytes "ticket_request")
    (ping : typeOfDoc (w.parsesNext A msgJson).doc ≠ bytes "ping") :
    posts ((processNetworkMessage A sha256 maxSize config client msgJson).run
      (World.answer A) w).2.log =
      posts w.log := by
  have first : (parse msgJson).run (World.answer A) w =
      ((w.parsesNext A msgJson).doc, (World.answer A (.deserializeJson msgJson) w).2) := rfl
  have second : ∀ w : World, posts ((parse msgJson).run (World.answer A) w).2.log =
      posts w.log := by
    intro w
    simp [parse, World.answer]
  rw [Ne, ← networkMessageTypeOf_eq_ticketRequest] at ticket
  rw [Ne, ← networkMessageTypeOf_eq_ping] at ping
  rw [processNetworkMessage, run_bind, first]
  have logged : posts (World.answer A (.deserializeJson msgJson) w).2.log = posts w.log := by
    simp [World.answer]
  cases kind : networkMessageTypeOf (typeOfDoc (w.parsesNext A msgJson).doc) with
  | TicketRequest => exact absurd kind ticket
  | Ping => exact absurd kind ping
  | _ =>
    simp only [run_bind, run_pure]
    rw [second, logged]

/-- Error codes make no difference to what is posted; a message is passed over unless its type
reads as one of the two; and when no parse is made to fail, the only texts parsed with an error
are replies and absent forms. -/
theorem errors_unseen (sha256 : Sha256) (maxSize n : Nat) (t : Task) :
    (∀ (A A₁ A₂ : ArduinoJson) (w w' : World), Alike A₁ A₂ (· = ·) w w' →
      texts ((loop A sha256 maxSize n t).run (World.answer A₁) w).2.log =
        texts ((loop A sha256 maxSize n t).run (World.answer A₂) w').2.log) ∧
    (∀ (A : ArduinoJson) (config : Config) (client : AgentClient) (msgJson : Bytes) (w : World),
      typeOfDoc (w.parsesNext A msgJson).doc ≠ bytes "ticket_request" →
      typeOfDoc (w.parsesNext A msgJson).doc ≠ bytes "ping" →
      posts ((processNetworkMessage A sha256 maxSize config client msgJson).run
        (World.answer A) w).2.log =
        posts w.log) ∧
    ∀ (A : ArduinoJson) (w : World), A.Lawful → w.Sound →
      ∃ es, ((loop A sha256 maxSize n t).run (World.answer A) w).2.log = w.log ++ es ∧
        Excused es := by
  refine ⟨?_, fun A => unrecognised_silent A sha256 maxSize, ?_⟩
  · intro A A₁ A₂ w w' alike
    exact (loop_alongside A (same_views sha256) maxSize n (TasksAlike.refl t) w w' alike).2.posted
  · intro A w lawful sound
    obtain ⟨-, es, logged, excused⟩ := loop_speaks lawful sha256 maxSize n t w sound
    exact ⟨es, logged, excused⟩

/-- The sample library without its error codes. -/
def heedless : ArduinoJson :=
  { textLibrary with deserializeJson := fun s => ⟨false, textLibrary.read s⟩ }

/-- The sample reply, cut off inside its first message. -/
def cutOffReply : String := "\x7b\"messages\":[\x7b\"type\":\"ping\""

theorem errors_unseen_sample :
    texts ((loop textLibrary sampleSha256 0 1 sampleTask).run (World.answer textLibrary)
        (replying cutOffReply)).2.log =
      texts ((loop textLibrary sampleSha256 0 1 sampleTask).run (World.answer heedless)
        (replying cutOffReply)).2.log ∧
    ∃ es, (samplePoll sampleReply).2.log = [] ++ es ∧ Excused es := by
  obtain ⟨alike, -, excused⟩ := errors_unseen sampleSha256 0 1 sampleTask
  refine ⟨alike textLibrary textLibrary heedless _ _ ⟨rfl, rfl, rfl, fun _ _ => rfl, rfl⟩, ?_⟩
  rw [samplePoll]
  exact excused textLibrary _ textLibrary_lawful fun _ => rfl

theorem cut_off_reply_is_answered :
    (textLibrary.deserializeJson (bytes cutOffReply)).error = true ∧
      (posts (samplePoll cutOffReply).2.log).tail.map (fun post => answerOf textLibrary post.1) =
        [.acknowledgement (bytes "ping") (some [])] := by
  decide +kernel

end Stembot
