import Stembot.Agent.Authentication
import Stembot.Agent.Hex
import Stembot.Models.Network

/-!
# The HTTP client

`AgentClient` of `agent.cpp`. An exchange is what the HTTP library reports back:
the events in order, the result of the call and the status code.
-/

namespace Stembot

open Library

inductive HttpEvent where
  | onHeader (key value : CString)
  | onData (data : Bytes)
  | error
  | other

structure HttpResponse where
  nonceHex : Bytes := []
  tagHex : Bytes := []
  body : Bytes := []
  error : Bool := false

def lower (b : UInt8) : UInt8 := if 65 ≤ b ∧ b ≤ 90 then b + 32 else b

/-- `strcasecmp(a, b) == 0` -/
def sameName (a b : Bytes) : Bool := a.map lower == b.map lower

def httpEventHandler (resp : HttpResponse) : HttpEvent → HttpResponse
  | .onHeader key value =>
    if sameName key.1 (bytes "Nonce") then { resp with nonceHex := value.1 }
    else if sameName key.1 (bytes "Tag") then { resp with tagHex := value.1 }
    else resp
  | .onData data => { resp with body := resp.body ++ data }
  | .error => { resp with error := true }
  | .other => resp

structure HttpRequest where
  url : Bytes
  headers : List (Bytes × Bytes)
  body : Bytes
  deriving DecidableEq

/-- `init` says whether a client could be made at all. -/
structure HttpExchange where
  init : Bool
  events : List HttpEvent
  performed : Bool
  status : Int

structure AgentClient where
  url : Bytes
  key : Key
  agtuuid : Bytes

namespace AgentClient

variable (P : Psa) (c : AgentClient)

/-- What becomes of a response. -/
def receive (dec : PsaRun) (x : HttpExchange) (resp : HttpResponse) : Bytes :=
  if !x.performed || x.status < 200 || x.status ≥ 300 || resp.error then [] else
  if resp.nonceHex.length ≠ 32 ∨ resp.tagHex.length ≠ 32 then [] else
  let respNonce := hexToBytes resp.nonceHex
  let respTag := hexToBytes resp.tagHex
  if h : respNonce.length = 16 ∧ respTag.length = 16 then
    (aesEaxDecrypt P dec c.key ⟨respNonce, h.1⟩ ⟨respTag, h.2⟩ resp.body).getD []
  else []

/-- The request that was performed, if any, and the returned string. -/
def postEncrypted (enc dec : PsaRun) (x : HttpExchange) (plaintextJson : Bytes) :
    Option HttpRequest × Bytes :=
  let e := aesEaxEncrypt P enc c.key plaintextJson
  if e.ciphertext = [] ∧ plaintextJson ≠ [] then (none, []) else
  if !x.init then (none, []) else
  let request : HttpRequest :=
    { url := cstr c.url
      headers := [(bytes "Content-Type", bytes "application/binary"),
        (bytes "Nonce", bytesToHex e.nonce.toList), (bytes "Tag", bytesToHex e.tag.toList)]
      body := e.ciphertext }
  (some request, c.receive P dec x (x.events.foldl httpEventHandler {}))

end AgentClient

namespace HttpEvent

def header (name : String) : HttpEvent → Option Bytes
  | .onHeader key value => if sameName key.1 (bytes name) then some value.1 else none
  | _ => none

def chunk : HttpEvent → Bytes
  | .onData data => data
  | _ => []

def isError : HttpEvent → Bool
  | .error => true
  | _ => false

end HttpEvent

namespace HttpExchange

variable (x : HttpExchange)

/-- The value of the last header of that name, in any letter case. -/
def lastHeader (name : String) : Option Bytes :=
  (x.events.filterMap (HttpEvent.header name)).getLast?

/-- All chunks in arrival order. -/
def body : Bytes := x.events.flatMap HttpEvent.chunk

/-- The exchange was performed, and reported neither an error nor a bad status. -/
structure Completed : Prop where
  init : x.init = true
  performed : x.performed = true
  success : 200 ≤ x.status ∧ x.status ≤ 299
  faultless : ∀ e ∈ x.events, e.isError = false

/-- The last header of that name consists of 32 hexadecimal digits, the coding of `b`. -/
def Carries (name : String) (b : Block) : Prop :=
  ∃ hex, x.lastHeader name = some hex ∧ hex.length = 32 ∧ (∀ c ∈ hex, HexDigit c) ∧
    hexToBytes hex = b.toList

end HttpExchange

/-- A name is not both, so the order of the two comparisons does not matter. -/
theorem sameName_tag_of_nonce {name : Bytes} (h : sameName name (bytes "Nonce")) :
    sameName name (bytes "Tag") = false := by
  have nonce : name.map lower = (bytes "Nonce").map lower := by simpa [sameName] using h
  rw [sameName, nonce]
  decide

theorem foldl_httpEventHandler (events : List HttpEvent) (resp : HttpResponse) :
    events.foldl httpEventHandler resp =
      { nonceHex := (events.filterMap (HttpEvent.header "Nonce")).getLast?.getD resp.nonceHex
        tagHex := (events.filterMap (HttpEvent.header "Tag")).getLast?.getD resp.tagHex
        body := resp.body ++ events.flatMap HttpEvent.chunk
        error := resp.error || events.any HttpEvent.isError } := by
  induction events generalizing resp with
  | nil => simp
  | cons e events ih =>
    rw [List.foldl_cons, ih]
    cases e with
    | onHeader key value =>
      by_cases nonce : sameName key.1 (bytes "Nonce")
      · have tag := sameName_tag_of_nonce nonce
        simp [httpEventHandler, HttpEvent.header, HttpEvent.chunk, HttpEvent.isError, nonce, tag,
          List.getLast?_cons]
      · by_cases tag : sameName key.1 (bytes "Tag") <;>
          simp [httpEventHandler, HttpEvent.header, HttpEvent.chunk, HttpEvent.isError, nonce, tag,
            List.getLast?_cons]
    | onData data =>
      simp [httpEventHandler, HttpEvent.header, HttpEvent.chunk,
        HttpEvent.isError, List.append_assoc]
    | error => simp [httpEventHandler, HttpEvent.header, HttpEvent.chunk, HttpEvent.isError]
    | other => simp [httpEventHandler, HttpEvent.header, HttpEvent.chunk, HttpEvent.isError]

/-- The response the handler has built when the exchange is over. -/
theorem HttpExchange.response_eq (x : HttpExchange) :
    x.events.foldl httpEventHandler {} =
      ⟨(x.lastHeader "Nonce").getD [], (x.lastHeader "Tag").getD [], x.body,
        x.events.any HttpEvent.isError⟩ := by
  rw [foldl_httpEventHandler]
  simp [HttpExchange.lastHeader, HttpExchange.body]

/-- 32 characters decode to a block exactly when they are all digits. -/
theorem hexToBytes_block_iff {hex : Bytes} (length : hex.length = 32) :
    (hexToBytes hex).length = 16 ↔ ∀ c ∈ hex, HexDigit c := by
  constructor
  · intro block c hc
    by_contra bad
    rw [hexToBytes_of_bad ⟨c, hc, bad⟩] at block
    cases block
  · intro digits
    rw [hexToBytes_length (by omega) digits, length]

/-- A header that is present and well-formed carries some block. -/
theorem HttpExchange.carries_of_block {x : HttpExchange} {name : String}
    (length : ((x.lastHeader name).getD []).length = 32)
    (block : (hexToBytes ((x.lastHeader name).getD [])).length = 16) :
    x.Carries name ⟨hexToBytes ((x.lastHeader name).getD []), block⟩ := by
  obtain ⟨hex, present⟩ : ∃ hex, x.lastHeader name = some hex := by
    cases present : x.lastHeader name with
    | none => simp [present] at length
    | some hex => exact ⟨hex, rfl⟩
  have value : (x.lastHeader name).getD [] = hex := by rw [present, Option.getD_some]
  have digits := (hexToBytes_block_iff length).mp block
  rw [value] at length digits
  exact ⟨hex, present, length, digits, by rw [← value]; rfl⟩

theorem HttpExchange.Carries.header {x : HttpExchange} {name : String} {b : Block}
    (h : x.Carries name b) :
    ((x.lastHeader name).getD []).length = 32 ∧
      hexToBytes ((x.lastHeader name).getD []) = b.toList := by
  obtain ⟨hex, present, length, -, decoded⟩ := h
  rw [present]
  exact ⟨length, decoded⟩

namespace AgentClient

section Receive

variable (P : Psa) (c : AgentClient) (dec : PsaRun) (x : HttpExchange)

/-- A completed exchange with both headers is decided by decryption alone. -/
theorem receive_of_carries (completed : x.Completed) {nonce tag : Block}
    (hn : x.Carries "Nonce" nonce) (ht : x.Carries "Tag" tag) :
    c.receive P dec x (x.events.foldl httpEventHandler {}) =
      (aesEaxDecrypt P dec c.key nonce tag x.body).getD [] := by
  obtain ⟨nonceLength, nonceBytes⟩ := hn.header
  obtain ⟨tagLength, tagBytes⟩ := ht.header
  have quiet : x.events.any HttpEvent.isError = false := by
    simpa using completed.faultless
  have status : ¬ x.status < 200 ∧ ¬ x.status ≥ 300 := by
    have := completed.success
    omega
  have blocks : (hexToBytes ((x.lastHeader "Nonce").getD [])).length = 16 ∧
      (hexToBytes ((x.lastHeader "Tag").getD [])).length = 16 := by
    rw [nonceBytes, tagBytes]
    exact ⟨nonce.toList_length, tag.toList_length⟩
  rw [x.response_eq]
  simp only [receive, completed.performed, status, quiet, nonceLength, tagLength, Bool.not_true,
    decide_false, Bool.or_false, Bool.false_eq_true, if_false, ne_eq, not_true_eq_false, or_self,
    dif_pos blocks]
  congr 2 <;> exact Subtype.ext (by assumption)

/-- Nothing but a completed exchange with both headers yields a text. -/
theorem receive_eq_nil_or (init : x.init = true) :
    c.receive P dec x (x.events.foldl httpEventHandler {}) = [] ∨
      x.Completed ∧ ∃ nonce tag, x.Carries "Nonce" nonce ∧ x.Carries "Tag" tag := by
  rw [x.response_eq]
  simp only [receive]
  split
  · exact .inl rfl
  · rename_i completed
    obtain ⟨performed, low, high, quiet⟩ : x.performed = true ∧ 200 ≤ x.status ∧ x.status < 300 ∧
        ∀ e ∈ x.events, e.isError = false := by
      simpa [and_assoc] using completed
    split
    · exact .inl rfl
    · rename_i lengths
      obtain ⟨nonceLength, tagLength⟩ := not_or.mp lengths
      split
      · rename_i blocks
        exact .inr ⟨⟨init, performed, ⟨low, by omega⟩, quiet⟩, _, _,
          x.carries_of_block (not_not.mp nonceLength) blocks.1,
          x.carries_of_block (not_not.mp tagLength) blocks.2⟩
      · exact .inl rfl

end Receive

end AgentClient

end Stembot
