import Stembot.Agent.Client
import Stembot.Agent.PsaDevice

/-!
# The exchange, call by call

`AgentClient::post_encrypted` over the calls of the cipher and of the HTTP
library. Whatever both answer, a client is set up in full before it is used, and
is cleaned up; no key is there while a client is.
-/

namespace Stembot

open Library Program

abbrev HttpHandle := Nat

/-- The event handler is called back while the request is performed, with the events that
`perform` answers. -/
inductive HttpOp where
  | clientInit (url : Bytes) (timeoutMs : Nat)
  | setMethodPost (client : HttpHandle)
  | setHeader (client : HttpHandle) (name value : Bytes)
  | setPostField (client : HttpHandle) (data : Bytes)
  | perform (client : HttpHandle)
  | getStatusCode (client : HttpHandle)
  | cleanup (client : HttpHandle)

/-- The results of the setters are not looked at. -/
abbrev HttpOp.Res : HttpOp → Type
  | .clientInit _ _ => Option HttpHandle
  | .setMethodPost _ | .setHeader _ _ _ | .setPostField _ _ | .cleanup _ => Unit
  | .perform _ => Bool × List HttpEvent
  | .getStatusCode _ => Int

inductive TransportOp where
  | psa (op : PsaOp)
  | http (op : HttpOp)

abbrev TransportOp.Res : TransportOp → Type
  | .psa op => op.Res
  | .http op => op.Res

abbrev TransportProgram := Program TransportOp TransportOp.Res

abbrev http (op : HttpOp) : TransportProgram op.Res := Program.issue (TransportOp.http op)

abbrev HttpAnswer := Answered HttpOp HttpOp.Res

abbrev TransportAnswer := Answered TransportOp TransportOp.Res

/-- Calls of the cipher made by the client. -/
def onPsa {α : Type} (p : PsaProgram α) : TransportProgram α :=
  p.lower fun op => Program.issue (TransportOp.psa op)

namespace Transport

/-- What becomes of a response. -/
def receive (c : AgentClient) (performed : Bool) (status : Int) (resp : HttpResponse) :
    TransportProgram Bytes := do
  if !performed || status < 200 || status ≥ 300 || resp.error then return []
  if resp.nonceHex.length ≠ 32 ∨ resp.tagHex.length ≠ 32 then return []
  let respNonce := hexToBytes resp.nonceHex
  let respTag := hexToBytes resp.tagHex
  if nonce : respNonce.length = 16 then
    if tag : respTag.length = 16 then
      let plain ← onPsa (Cipher.aesEaxDecrypt c.key ⟨respNonce, nonce⟩ ⟨respTag, tag⟩ resp.body)
      return plain.getD []
    else return []
  else return []

/-- The setters in front of the request. -/
def prepare (client : HttpHandle) (nonceHex tagHex ciphertext : Bytes) : TransportProgram Unit := do
  http (.setMethodPost client)
  http (.setHeader client (bytes "Content-Type") (bytes "application/binary"))
  http (.setHeader client (bytes "Nonce") nonceHex)
  http (.setHeader client (bytes "Tag") tagHex)
  http (.setPostField client ciphertext)

/-- `post_encrypted` behind the encryption. -/
def send (c : AgentClient) (enc : AesEaxResult) : TransportProgram Bytes := do
  match ← http (.clientInit (cstr c.url) 30000) with
  | none => return []
  | some client =>
    prepare client (bytesToHex enc.nonce.toList) (bytesToHex enc.tag.toList) enc.ciphertext
    let (performed, events) ← http (.perform client)
    let status ← http (.getStatusCode client)
    http (.cleanup client)
    receive c performed status (events.foldl httpEventHandler {})

def postEncrypted (c : AgentClient) (plaintextJson : Bytes) : TransportProgram Bytes := do
  let enc ← onPsa (Cipher.aesEaxEncrypt c.key plaintextJson)
  if enc.ciphertext = [] ∧ plaintextJson ≠ [] then return []
  send c enc

end Transport

/-- What is known of the client that is there. -/
structure Connection where
  client : HttpHandle
  post : Bool := false
  headers : List Bytes := []
  body : Bool := false
  performed : Bool := false

/-- What the client needs to send an encrypted message. -/
structure Connection.Ready (k : Connection) : Prop where
  post : k.post = true
  headers : k.headers = [bytes "Content-Type", bytes "Nonce", bytes "Tag"]
  body : k.body = true

/-- One client at a time. A request is performed once, when all of it has been set, and not changed
afterwards. -/
def Connection.Allows (s : Option Connection) : HttpOp → Prop
  | .clientInit _ _ => s = none
  | .setMethodPost h | .setHeader h _ _ | .setPostField h _ =>
    ∃ k, s = some k ∧ k.client = h ∧ k.performed = false
  | .perform h => ∃ k, s = some k ∧ k.client = h ∧ k.Ready ∧ k.performed = false
  | .getStatusCode h => ∃ k, s = some k ∧ k.client = h ∧ k.performed = true
  | .cleanup h => ∃ k, s = some k ∧ k.client = h

def Connection.next (s : Option Connection) : HttpAnswer → Option Connection
  | ⟨.clientInit _ _, r⟩ => r.map fun client => { client }
  | ⟨.setMethodPost _, _⟩ => s.map fun k => { k with post := true }
  | ⟨.setHeader _ name _, _⟩ => s.map fun k => { k with headers := k.headers ++ [name] }
  | ⟨.setPostField _ _, _⟩ => s.map fun k => { k with body := true }
  | ⟨.perform _, _⟩ => s.map fun k => { k with performed := true }
  | ⟨.getStatusCode _, _⟩ => s
  | ⟨.cleanup _, _⟩ => none

/-- The rules of the library. -/
def connection : Monitor HttpOp HttpOp.Res (Option Connection) where
  allows := Connection.Allows
  next := Connection.next

namespace HttpAnswer

def makes (client : HttpHandle) : HttpAnswer → Bool
  | ⟨.clientInit _ _, r⟩ => r = some client
  | _ => false

def cleansUp (client : HttpHandle) : HttpAnswer → Bool
  | ⟨.cleanup client', _⟩ => client' = client
  | _ => false

end HttpAnswer

namespace Connection

/-- Whether this client is there, as a number. -/
def held (client : HttpHandle) (s : Option Connection) : Nat :=
  if s.any (·.client = client) then 1 else 0

theorem held_step (client : HttpHandle) (s : Option Connection) (e : HttpAnswer)
    (allowed : Connection.Allows s e.1) :
    held client s + (e.makes client).toNat = held client (Connection.next s e) +
      (e.cleansUp client).toNat := by
  obtain ⟨op, r⟩ := e
  cases op with
  | clientInit url timeoutMs =>
    obtain rfl : s = none := allowed
    cases r with
    | none => rfl
    | some client' =>
      by_cases same : client' = client <;>
        simp [held, Connection.next, HttpAnswer.makes, HttpAnswer.cleansUp, same]
  | cleanup client' =>
    obtain ⟨k, rfl, rfl⟩ := allowed
    by_cases same : k.client = client <;>
      simp [held, Connection.next, HttpAnswer.makes, HttpAnswer.cleansUp, same]
  | getStatusCode _ => rfl
  | _ => cases s <;> rfl

/-- Every client that was made has been cleaned up. -/
theorem balanced {es : List HttpAnswer} (accepted : connection.Accepts none es)
    (gone : connection.after none es = none) (client : HttpHandle) :
    es.countP (HttpAnswer.makes client) = es.countP (HttpAnswer.cleansUp client) := by
  have balance := accepted.balance (held_step client)
  rw [gone] at balance
  simpa [held] using balance

end Connection

/-- What the transport holds: keys and the cipher operation, and the client. -/
structure InHand where
  custody : Custody := {}
  connection : Option Connection := none

/-- The cipher is called while no client is there, and the client while no key is. -/
def InHand.Allows (s : InHand) : TransportOp → Prop
  | .psa op => s.custody.Allows op ∧ s.connection = none
  | .http op => Connection.Allows s.connection op ∧ s.custody = {}

def InHand.next (s : InHand) : TransportAnswer → InHand
  | ⟨.psa op, r⟩ => { s with custody := s.custody.next ⟨op, r⟩ }
  | ⟨.http op, r⟩ => { s with connection := Connection.next s.connection ⟨op, r⟩ }

def inHand : Monitor TransportOp TransportOp.Res InHand where
  allows := InHand.Allows
  next := InHand.next

section Obeys

/-- What obeys the rules of the cipher does so within the transport. -/
theorem onPsa_obeys {α : Type} {p : PsaProgram α} {c : Custody} {c' : α → Custody}
    (obeys : custody.Obeys c p c') : inHand.Obeys { custody := c } (onPsa p) fun a =>
      { custody := c' a } := by
  have sound : Monitor.Sound custody inHand (fun c => ({ custody := c } : InHand))
      fun op => Program.issue (TransportOp.psa op) := by
    intro c op allowed
    exact .issue ⟨allowed, rfl⟩ fun _ => rfl
  exact obeys.lower sound

namespace Transport

/-- A call of the client, with what is known of it afterwards. -/
theorem http_obeys {op : HttpOp} {s : Option Connection} {s' : op.Res → Option Connection}
    (allowed : Connection.Allows s op) (next : ∀ r, Connection.next s ⟨op, r⟩ = s' r) :
    inHand.Obeys { connection := s } (http op) fun r => { connection := s' r } := by
  apply Monitor.Obeys.issue
  · exact ⟨allowed, rfl⟩
  · intro r
    exact congrArg (fun s => ({ connection := s } : InHand)) (next r)

/-- A client of which everything has been set. -/
def ready (client : HttpHandle) : Connection where
  client := client
  post := true
  headers := [bytes "Content-Type", bytes "Nonce", bytes "Tag"]
  body := true

theorem prepare_obeys (client : HttpHandle) (nonceHex tagHex ciphertext : Bytes) :
    inHand.Obeys { connection := some { client } } (prepare client nonceHex tagHex ciphertext)
      fun _ => { connection := some (ready client) } := by
  have setting : ∀ (op : HttpOp) (k k' : Connection), Connection.Allows (some k) op →
      (∀ r, Connection.next (some k) ⟨op, r⟩ = some k') →
      inHand.Obeys { connection := some k } (http op) fun _ => { connection := some k' } :=
    fun op k k' allowed next => http_obeys allowed next
  refine (setting (.setMethodPost client) _ { client, post := true }
    ⟨_, rfl, rfl, rfl⟩ fun _ => rfl).bind fun _ => ?_
  refine (setting (.setHeader client _ _) _
    { client, post := true, headers := [bytes "Content-Type"] }
    ⟨_, rfl, rfl, rfl⟩ fun _ => rfl).bind fun _ => ?_
  refine (setting (.setHeader client _ _) _
    { client, post := true, headers := [bytes "Content-Type", bytes "Nonce"] }
    ⟨_, rfl, rfl, rfl⟩ fun _ => rfl).bind fun _ => ?_
  refine (setting (.setHeader client _ _) _
    { client, post := true, headers := [bytes "Content-Type", bytes "Nonce", bytes "Tag"] }
    ⟨_, rfl, rfl, rfl⟩ fun _ => rfl).bind fun _ => ?_
  exact setting (.setPostField client ciphertext) _ _ ⟨_, rfl, rfl, rfl⟩ fun _ => rfl

theorem receive_obeys (c : AgentClient) (performed : Bool) (status : Int) (resp : HttpResponse) :
    inHand.Obeys {} (receive c performed status resp) fun _ => {} := by
  unfold receive
  split
  · exact .pure rfl
  · split
    · exact .pure rfl
    · dsimp only
      split
      · split
        · refine (onPsa_obeys (Cipher.aesEaxDecrypt_obeys c.key _ _ resp.body)).bind fun _ => ?_
          exact .pure rfl
        · exact .pure rfl
      · exact .pure rfl

theorem send_obeys (c : AgentClient) (enc : AesEaxResult) :
    inHand.Obeys {} (send c enc) fun _ => {} := by
  have init : inHand.Obeys {} (http (.clientInit (cstr c.url) 30000))
      fun r => { connection := r.map fun client => { client } } := http_obeys rfl fun _ => rfl
  refine init.bind fun r => ?_
  cases r with
  | none => exact .pure rfl
  | some client =>
    have perform : inHand.Obeys { connection := some (ready client) } (http (.perform client))
        fun _ => { connection := some { ready client with performed := true } } :=
      http_obeys ⟨_, rfl, rfl, ⟨rfl, rfl, rfl⟩, rfl⟩ fun _ => rfl
    have status : inHand.Obeys { connection := some { ready client with performed := true } }
        (http (.getStatusCode client)) fun _ =>
        { connection := some { ready client with performed := true } } :=
      http_obeys ⟨_, rfl, rfl, rfl⟩ fun _ => rfl
    have cleanup : inHand.Obeys { connection := some { ready client with performed := true } }
        (http (.cleanup client)) fun _ => {} := http_obeys ⟨_, rfl, rfl⟩ fun _ => rfl
    refine (prepare_obeys client _ _ _).bind fun _ => ?_
    refine perform.bind fun answered => ?_
    refine status.bind fun code => ?_
    exact cleanup.bind fun _ => receive_obeys c _ code _

theorem postEncrypted_obeys (c : AgentClient) (text : Bytes) :
    inHand.Obeys {} (postEncrypted c text) fun _ => {} := by
  refine (onPsa_obeys (Cipher.aesEaxEncrypt_obeys c.key text)).bind fun enc => ?_
  split
  · exact .pure rfl
  · exact send_obeys c enc

end Transport

end Obeys

end Stembot
