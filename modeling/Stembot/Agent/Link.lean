import Stembot.Agent.Delivery
import Stembot.Agent.Transport

/-!
# The exchange on its devices

`post_encrypted` over a PSA device and an HTTP library of which nothing is known.
What it asks of the library makes up the request, and what it returns is made of
what the library has reported.
-/

namespace Stembot

open Library Program

/-- An HTTP library, with a state of its own. -/
abbrev HttpLibrary (σ : Type) := Handler HttpOp HttpOp.Res σ

/-- What the client works with, and the calls it has made to the library. -/
structure Link (σ : Type) where
  psa : PsaDevice
  library : σ
  calls : List HttpAnswer

namespace Link

variable {σ : Type} (P : Psa) (h : HttpLibrary σ)

/-- A call to the library. -/
def serve (op : HttpOp) (l : Link σ) : op.Res × Link σ :=
  ((h op l.library).1, { l with
    library := (h op l.library).2
    calls := l.calls ++ [⟨op, (h op l.library).1⟩] })

def answer : Handler TransportOp TransportOp.Res (Link σ)
  | .psa op, l =>
    ((PsaDevice.answer P op l.psa).1, { l with psa := (PsaDevice.answer P op l.psa).2 })
  | .http op, l => serve h op l

/-- Calls to the library whose answers are not looked at. -/
def after (l : Link σ) (ops : List HttpOp) : Link σ := ops.foldl (fun l op => (serve h op l).2) l

/-- These calls with their answers. -/
def answers : Link σ → List HttpOp → List HttpAnswer
  | _, [] => []
  | l, op :: ops => ⟨op, (h op l.library).1⟩ :: answers (serve h op l).2 ops

theorem after_calls (l : Link σ) (ops : List HttpOp) :
    (l.after h ops).calls = l.calls ++ l.answers h ops := by
  induction ops generalizing l with
  | nil => exact (List.append_nil _).symm
  | cons op ops ih =>
    calc (l.after h (op :: ops)).calls
        = ((serve h op l).2.after h ops).calls := rfl
      _ = (l.calls ++ [⟨op, (h op l.library).1⟩]) ++ (serve h op l).2.answers h ops := ih _
      _ = l.calls ++ l.answers h (op :: ops) := List.append_assoc _ _ _

end Link

/-- The request that is being set, those performed, each with whether it was a POST, and what
was reported. -/
structure Account where
  draft : HttpRequest := { url := [], headers := [], body := [] }
  post : Bool := false
  performed : List (Bool × HttpRequest) := []
  reported : HttpExchange := { init := false, events := [], performed := false, status := 0 }

def Account.next (a : Account) : HttpAnswer → Account
  | ⟨.clientInit url _, r⟩ =>
    { performed := a.performed
      draft := { url, headers := [], body := [] }
      reported := { init := r.isSome, events := [], performed := false, status := 0 } }
  | ⟨.setMethodPost _, _⟩ => { a with post := true }
  | ⟨.setHeader _ name value, _⟩ =>
    { a with draft := { a.draft with headers := a.draft.headers ++ [(name, value)] } }
  | ⟨.setPostField _ data, _⟩ => { a with draft := { a.draft with body := data } }
  | ⟨.perform _, (performed, events)⟩ =>
    { a with
      performed := a.performed ++ [(a.post, a.draft)]
      reported := { a.reported with performed, events } }
  | ⟨.getStatusCode _, status⟩ => { a with reported := { a.reported with status } }
  | ⟨.cleanup _, _⟩ => a

def account (es : List HttpAnswer) : Account := es.foldl Account.next {}

/-- The calls begin with the making of a client, if there are any. -/
def Separate (es : List HttpAnswer) : Prop :=
  es = [] ∨ ∃ url timeoutMs r rest, es = ⟨.clientInit url timeoutMs, r⟩ :: rest

/-- The calls begin by asking for a client for this url, and what came of that is what the
account says. -/
def AgentClient.Asks (c : AgentClient) (es : List HttpAnswer) : Prop :=
  ∃ made rest, es = ⟨.clientInit (cstr c.url) 30000, made⟩ :: rest ∧
  (account es).reported.init = made.isSome

theorem AgentClient.Asks.separate {c : AgentClient} {es : List HttpAnswer} (asks : c.Asks es) :
    Separate es := by
  obtain ⟨made, rest, first, -⟩ := asks
  exact .inr ⟨_, _, made, rest, first⟩

theorem separate_of_asked {c : AgentClient} {es : List HttpAnswer}
    {failed : Prop} [Decidable failed] (asked : if failed then es = [] else c.Asks es) :
    Separate es := by
  split at asked
  · exact .inl asked
  · exact asked.separate

section Runs

variable {σ : Type} {P : Psa} {h : HttpLibrary σ}

/-- The cipher works on its device alone. -/
theorem run_onPsa {α : Type} (p : PsaProgram α) (l : Link σ) :
    (onPsa p).run (Link.answer P h) l =
      ((p.run (PsaDevice.answer P) l.psa).1,
        { l with psa := (p.run (PsaDevice.answer P) l.psa).2 }) := by
  have part : ∀ op d, (Program.issue (TransportOp.psa op)).run (Link.answer P h)
    { l with psa := d } =
      ((PsaDevice.answer P op d).1, { l with psa := (PsaDevice.answer P op d).2 }) :=
      fun op d => rfl
  rw [onPsa, run_lower]
  exact run_embed part p l.psa

theorem run_receive {l : Link σ} (idle : l.psa.Idle) (c : AgentClient) (x : HttpExchange)
    (resp : HttpResponse) :
    let ran := (Transport.receive c x.performed x.status resp).run (Link.answer P h) l
    ran.1 = c.receive P (l.psa.outcome 1) x resp ∧ ran.2.calls = l.calls ∧
        l.psa.Returns ran.2.psa := by
  have same : l.psa.Returns l.psa := ⟨idle, rfl, rfl, Nat.le_refl _⟩
  unfold Transport.receive AgentClient.receive
  split
  · exact ⟨rfl, rfl, same⟩
  · split
    · exact ⟨rfl, rfl, same⟩
    · dsimp only
      by_cases nonce : (hexToBytes resp.nonceHex).length = 16
      · by_cases tag : (hexToBytes resp.tagHex).length = 16
        · obtain ⟨value, returned⟩ := PsaDevice.run_aesEaxDecrypt (P := P) idle c.key
            ⟨hexToBytes resp.nonceHex, nonce⟩ ⟨hexToBytes resp.tagHex, tag⟩ resp.body
          rw [dif_pos nonce, dif_pos tag, dif_pos ⟨nonce, tag⟩, run_bind, run_onPsa, run_pure]
          exact ⟨congrArg (Option.getD · []) value, rfl, returned⟩
        · rw [dif_pos nonce, dif_neg tag, dif_neg fun both => tag both.2]
          exact ⟨rfl, rfl, same⟩
      · rw [dif_neg nonce, dif_neg fun both => nonce both.1]
        exact ⟨rfl, rfl, same⟩

/-- The request that carries an encrypted text. -/
def AgentClient.request (c : AgentClient) (enc : AesEaxResult) : HttpRequest where
  url := cstr c.url
  headers := [(bytes "Content-Type", bytes "application/binary"),
    (bytes "Nonce", bytesToHex enc.nonce.toList), (bytes "Tag", bytesToHex enc.tag.toList)]
  body := enc.ciphertext

/-- The calls that a client gets to perform a request. -/
def AgentClient.calls (c : AgentClient) (enc : AesEaxResult) (client : HttpHandle) : List HttpOp :=
  .setMethodPost client :: ((c.request enc).headers.map fun header =>
    .setHeader client header.1 header.2) ++
    [.setPostField client enc.ciphertext, .perform client, .getStatusCode client, .cleanup client]

/-- A client is made, and performs the request; what comes back is received. -/
theorem run_send {l : Link σ} (idle : l.psa.Idle) (c : AgentClient) (enc : AesEaxResult) :
    let ran := (Transport.send c enc).run (Link.answer P h) l
    ∃ es, ran.2.calls = l.calls ++ es ∧ c.Asks es ∧ l.psa.Returns ran.2.psa ∧
      let x := (account es).reported
      ((account es).performed, ran.1) = if !x.init then ([], []) else
        ([(true, c.request enc)], c.receive P (l.psa.outcome 1) x
            (x.events.foldl httpEventHandler {})) := by
  intro ran
  let init : HttpOp := .clientInit (cstr c.url) 30000
  let begun : Link σ := (Link.serve h init l).2
  cases made : (h init l.library).1 with
  | none =>
    have answered : Link.answer P h (.http init) l = (none, begun) := Prod.ext made rfl
    have stopped : ran = ([], begun) := run_issue_bind answered _
    rw [stopped]
    exact ⟨[⟨init, (h init l.library).1⟩], rfl, ⟨_, [], rfl, rfl⟩, ⟨idle, rfl, rfl, Nat.le_refl _⟩,
      by rw [made]; rfl⟩
  | some client =>
    have answered : Link.answer P h (.http init) l = (some client, begun) := Prod.ext made rfl
    let es : List HttpAnswer := ⟨init, some client⟩ :: begun.answers h (c.calls enc client)
    let x := (account es).reported
    let done : Link σ := begun.after h (c.calls enc client)
    have onward :
      ran = (Transport.receive c x.performed x.status (x.events.foldl httpEventHandler {})).run
        (Link.answer P h) done := run_issue_bind answered _
    obtain ⟨value, calls, returned⟩ :=
      run_receive (h := h) (l := done) idle c x (x.events.foldl httpEventHandler {})
    refine ⟨es, ?_, ⟨some client, _, rfl, rfl⟩, ?_, ?_⟩
    · rw [onward, calls, Link.after_calls]
      change l.calls ++ [⟨init, (h init l.library).1⟩] ++ _ = _
      rw [made, List.append_assoc]
      rfl
    · rw [onward]
      exact returned
    · rw [onward]
      exact Prod.ext rfl value

theorem run_postEncrypted {l : Link σ} (idle : l.psa.Idle) (c : AgentClient) (text : Bytes) :
    let ran := (Transport.postEncrypted c text).run (Link.answer P h) l
    let during := ((Cipher.aesEaxEncrypt c.key text).run (PsaDevice.answer P) l.psa).2
    let enc := aesEaxEncrypt P (l.psa.outcome 2) c.key text
    ∃ es, ran.2.calls = l.calls ++ es ∧
      (if enc.ciphertext = [] ∧ text ≠ [] then es = [] else c.Asks es) ∧
      ran.2.psa.Idle ∧ ran.2.psa.keys = l.psa.keys ∧
      (ran.2.psa.nonces =
        if (l.psa.outcome 2).ok .generateRandom then l.psa.nonces.tail else l.psa.nonces) ∧
      let posted := c.postEncrypted P (l.psa.outcome 2) (during.outcome 1)
        (account es).reported text
      (account es).performed = (posted.1.map fun request => (true, request)).toList ∧
          ran.1 = posted.2 := by
  intro ran during enc
  obtain ⟨value, idle', keys, nonces⟩ := PsaDevice.run_aesEaxEncrypt (P := P) idle c.key text
  have onward :
    ran = (if enc.ciphertext = [] ∧ text ≠ [] then pure [] else Transport.send c enc).run
      (Link.answer P h) { l with psa := during } := by
    have first : ran = _ := run_bind _ _ _ _
    rw [run_onPsa, value] at first
    exact first
  by_cases failed : enc.ciphertext = [] ∧ text ≠ []
  · rw [if_pos failed] at onward
    rw [onward]
    refine ⟨[], (List.append_nil _).symm, ?_, idle', keys, nonces, ?_⟩
    · rw [if_pos failed]
    · simp [AgentClient.postEncrypted, enc, failed, account]
  · rw [if_neg failed] at onward
    obtain ⟨es, calls, asks, returned, outcome⟩ :=
      run_send (P := P) (h := h) (l := { l with psa := during }) idle' c enc
    rw [onward]
    refine ⟨es, calls, ?_, returned.idle, returned.keys.trans keys,
      returned.nonces.trans nonces, ?_⟩
    · rwa [if_neg failed]
    unfold AgentClient.postEncrypted
    rw [if_neg failed]
    cases init : (account es).reported.init with
    | false =>
      simp only [init, Bool.not_false, if_true, Prod.mk.injEq] at outcome ⊢
      exact outcome
    | true =>
      simp only [init, Bool.not_true, Bool.false_eq_true, if_false, Prod.mk.injEq] at outcome ⊢
      exact outcome

end Runs

/-- Whoever has the key reads the text out of the request. -/
def HttpRequest.Bears (request : HttpRequest) (P : Psa) (key : Key) (text : Bytes) : Prop :=
  ∃ nonce tag : Block, request.headers = [(bytes "Content-Type", bytes "application/binary"),
      (bytes "Nonce", bytesToHex nonce.toList), (bytes "Tag", bytesToHex tag.toList)] ∧
    P.eax.decrypt key nonce.toList tag request.body = some text

/-- The exchange brought a text that was encrypted with the key. -/
def HttpExchange.Brings (x : HttpExchange) (P : Psa) (key : Key) (text : Bytes) : Prop :=
  x.Completed ∧ ∃ nonce tag, x.Carries "Nonce" nonce ∧ x.Carries "Tag" tag ∧
    P.eax.decrypt key nonce.toList tag x.body = some text

/-- The calls of a post: a client is asked for, and if it can be made there is one request, which
bears the text. The reply is what was brought back, and empty when nothing was. -/
structure Conveys (P : Psa) (c : AgentClient) (text reply : Bytes) (es : List HttpAnswer) :
    Prop where
  asks : c.Asks es
  sent : (account es).reported.init = true → ∃ request : HttpRequest,
    (account es).performed = [(true, request)] ∧ request.url = cstr c.url ∧
    request.Bears P c.key text
  unsent : (account es).reported.init = false → (account es).performed = [] ∧ reply = []
  received : ∀ p, (account es).reported.init = true → (account es).reported.Brings P c.key p →
    reply = p
  authentic : reply ≠ [] → (account es).reported.Brings P c.key reply

section Conveys

variable {P : Psa} {c : AgentClient}

theorem AgentClient.request_bears {enc : PsaRun} (ok : enc.Succeeds encryptCalls) (text : Bytes) :
    (c.request (aesEaxEncrypt P enc c.key text)).Bears P c.key text := by
  rw [aesEaxEncrypt_of_ok P enc c.key ok]
  exact ⟨_, _, rfl, P.eax.decrypt_encrypt c.key _ text⟩

/-- With all calls of the cipher succeeding, a post conveys its text. -/
theorem conveys_of_ok {enc dec : PsaRun} (encrypts : enc.Succeeds encryptCalls)
    (decrypts : dec.Succeeds decryptCalls) {text reply : Bytes} {es : List HttpAnswer}
    (asked : if (aesEaxEncrypt P enc c.key text).ciphertext = [] ∧
    text ≠ [] then es = [] else c.Asks es) (performed : (account es).performed =
      ((c.postEncrypted P enc dec (account es).reported text).1.map fun request =>
        (true, request)).toList)
    (returned : reply = (c.postEncrypted P enc dec (account es).reported text).2) :
    Conveys P c text reply es := by
  have nonempty := c.encrypted_of_ok P encrypts text
  have opened : ∀ nonce tag, aesEaxDecrypt P dec c.key nonce tag (account es).reported.body =
      P.eax.decrypt c.key nonce.toList tag (account es).reported.body :=
    fun nonce tag => aesEaxDecrypt_of_ok P dec c.key decrypts nonce tag _
  constructor
  · rwa [if_neg nonempty] at asked
  · intro init
    refine ⟨c.request (aesEaxEncrypt P enc c.key text), ?_, rfl, c.request_bears encrypts text⟩
    rw [performed, AgentClient.postEncrypted, if_neg nonempty, init]
    rfl
  · intro init
    rw [c.postEncrypted_of_no_client P enc dec init] at performed returned
    exact ⟨performed, returned⟩
  · rintro p init ⟨completed, nonce, tag, hn, ht, accepted⟩
    rw [returned, c.postEncrypted_of_ok P encrypts dec init,
      c.receive_of_carries P dec _ completed hn ht, opened, accepted, Option.getD_some]
  · intro full
    cases init : (account es).reported.init with
    | false =>
      rw [c.postEncrypted_of_no_client P enc dec init] at returned
      exact absurd returned full
    | true =>
      rw [c.postEncrypted_of_ok P encrypts dec init] at returned
      rcases c.receive_eq_nil_or P dec (account es).reported init with empty |
        ⟨completed, nonce, tag, hn, ht⟩
      · exact absurd (returned.trans empty) full
      · rw [c.receive_of_carries P dec _ completed hn ht, opened] at returned
        refine ⟨completed, nonce, tag, hn, ht, ?_⟩
        cases accepted : P.eax.decrypt c.key nonce.toList tag (account es).reported.body with
        | none =>
          rw [accepted, Option.getD_none] at returned
          exact absurd returned full
        | some p =>
          rw [accepted, Option.getD_some] at returned
          rw [returned]

end Conveys

/-- On a PSA device that may fail any call but the initialisation and the clean-up, and with an HTTP
library that may do anything, the program asks for a client unless the encryption failed, performs
the request, and returns the text, of the function of the calls' outcomes and of what the library
reported. When no call of the cipher fails, what it was given goes out as one request that bears it,
if a client can be made; and what is returned was encrypted with the key, or nothing is. -/
theorem exchange_refines {σ : Type} (P : Psa) (h : HttpLibrary σ) {l : Link σ}
    (idle : l.psa.Idle) (c : AgentClient) (text : Bytes) :
    let ran := (Transport.postEncrypted c text).run (Link.answer P h) l
    let during := ((Cipher.aesEaxEncrypt c.key text).run (PsaDevice.answer P) l.psa).2
    let enc := aesEaxEncrypt P (l.psa.outcome 2) c.key text
    ∃ es, ran.2.calls = l.calls ++ es ∧
      (if enc.ciphertext = [] ∧ text ≠ [] then es = [] else c.Asks es) ∧
      ran.2.psa.Idle ∧ ran.2.psa.keys = l.psa.keys ∧
      (l.psa.Faultless → Conveys P c text ran.1 es) ∧
      let posted :=
        c.postEncrypted P (l.psa.outcome 2) (during.outcome 1) (account es).reported text
      (account es).performed = (posted.1.map fun request => (true, request)).toList ∧
        ran.1 = posted.2 := by
  intro ran during enc
  obtain ⟨es, calls, asked, idle', keys, -, performed, returned⟩ :=
    run_postEncrypted (P := P) (h := h) idle c text
  refine ⟨es, calls, asked, idle', keys, fun faultless => ?_, performed, returned⟩
  have later : during.Faultless := faultless.run _
  exact conveys_of_ok (PsaDevice.outcome_succeeds faultless 2)
    (PsaDevice.outcome_succeeds later 1).of_cons asked
    performed returned

/-- A library that reports this exchange for every request. -/
def sampleLibrary (x : HttpExchange) : HttpLibrary Unit
  | .clientInit _ _, s => (if x.init then some 1 else none, s)
  | .perform _, s => ((x.performed, x.events), s)
  | .getStatusCode _, s => (x.status, s)
  | .setMethodPost _, s | .setHeader _ _ _, s | .setPostField _ _, s | .cleanup _, s => ((), s)

def sampleHttp : HttpLibrary Unit := sampleLibrary AgentClient.sampleExchange

theorem exchange_refines_sample :
    let ran := (Transport.postEncrypted ⟨[], sampleKey, []⟩ (bytes "poll")).run
      (Link.answer samplePsa sampleHttp)
      ⟨samplePsaDevice, (), []⟩
    Conveys samplePsa ⟨[], sampleKey, []⟩ (bytes "poll") ran.1 ran.2.calls := by
  intro ran
  obtain ⟨es, calls, -, -, -, conveys, -⟩ := exchange_refines samplePsa sampleHttp
    (l := ⟨samplePsaDevice, (), []⟩) samplePsaDevice_idle ⟨[], sampleKey, []⟩ (bytes "poll")
  rw [show ran.2.calls = es from calls]
  exact conveys fun _ => rfl

end Stembot
