import Stembot.Agent.Client

/-!
# What a POST sends and returns

The reply is accepted exactly when it is complete and authentic. A failed
encryption is noticed by its empty ciphertext, which a failing cipher call does
not leave behind.
-/

namespace Stembot

open Library

namespace AgentClient

variable (P : Psa) (c : AgentClient)

/-- An encryption that succeeds leaves a ciphertext, unless there is nothing to encrypt. -/
theorem encrypted_of_ok {enc : PsaRun} (ok : enc.Succeeds encryptCalls) (data : Bytes) :
    ¬((aesEaxEncrypt P enc c.key data).ciphertext = [] ∧ data ≠ []) := by
  rw [aesEaxEncrypt_of_ok P enc c.key ok]
  rintro ⟨empty, full⟩
  have length := P.eax.crypt_length c.key (P.eax.mac c.key 0 enc.nonce.toList) data
  rw [show P.eax.crypt c.key _ data = [] from empty] at length
  exact full (List.length_eq_zero_iff.mp length.symm)

/-- With the encryption's calls succeeding, the reply alone decides the returned text. -/
theorem postEncrypted_of_ok {enc : PsaRun} (ok : enc.Succeeds encryptCalls) (dec : PsaRun)
    {x : HttpExchange} (init : x.init = true) (data : Bytes) :
    (c.postEncrypted P enc dec x data).2 =
      c.receive P dec x (x.events.foldl httpEventHandler {}) := by
  simp [postEncrypted, c.encrypted_of_ok P ok data, init]

theorem postEncrypted_of_no_client (enc dec : PsaRun) {x : HttpExchange} (init : x.init = false)
    (data : Bytes) : c.postEncrypted P enc dec x data = (none, []) := by
  simp [postEncrypted, init]

/-- The returned text is the decryption of the body when the exchange completed and its last
`Nonce` and `Tag` headers verify, and empty otherwise; a peer that encrypted `p` gets `p` across. -/
theorem post_encrypted_exact (enc dec : PsaRun) (encrypts : enc.Succeeds encryptCalls)
    (decrypts : dec.Succeeds decryptCalls) (data : Bytes) (x : HttpExchange) :
    (∀ nonce tag, x.Completed → x.Carries "Nonce" nonce → x.Carries "Tag" tag →
      tag = P.tag c.key nonce x.body →
      aesEaxDecrypt P dec c.key nonce tag x.body = some (c.postEncrypted P enc dec x data).2) ∧
    ((¬ ∃ nonce tag, x.Completed ∧ x.Carries "Nonce" nonce ∧ x.Carries "Tag" tag ∧
      tag = P.tag c.key nonce x.body) → (c.postEncrypted P enc dec x data).2 = []) ∧
    ∀ (peer : PsaRun) (p : Bytes), peer.Succeeds encryptCalls → x.Completed →
      x.lastHeader "Nonce" = some (bytesToHex (aesEaxEncrypt P peer c.key p).nonce.toList) →
      x.lastHeader "Tag" = some (bytesToHex (aesEaxEncrypt P peer c.key p).tag.toList) →
      x.body = (aesEaxEncrypt P peer c.key p).ciphertext →
        (c.postEncrypted P enc dec x data).2 = p := by
  refine ⟨?_, ?_, ?_⟩
  · intro nonce tag completed hn ht verifies
    rw [c.postEncrypted_of_ok P encrypts dec completed.init,
      c.receive_of_carries P dec x completed hn ht]
    obtain ⟨p, accepted⟩ := Option.isSome_iff_exists.mp
      ((accepts_iff decrypts nonce tag _).mpr verifies)
    rw [accepted, Option.getD_some]
  · intro rejected
    cases init : x.init with
    | false => rw [c.postEncrypted_of_no_client P enc dec init]
    | true =>
      rw [c.postEncrypted_of_ok P encrypts dec init]
      rcases c.receive_eq_nil_or P dec x init with empty | ⟨completed, nonce, tag, hn, ht⟩
      · exact empty
      · rw [c.receive_of_carries P dec x completed hn ht]
        have refused : ¬ (aesEaxDecrypt P dec c.key nonce tag x.body).isSome := fun accepted =>
          rejected ⟨nonce, tag, completed, hn, ht, (accepts_iff decrypts nonce tag _).mp accepted⟩
        rw [Option.not_isSome_iff_eq_none.mp refused, Option.getD_none]
  · intro peer p encrypted completed hn ht body
    have carries : ∀ (name : String) (b : Block), x.lastHeader name = some (bytesToHex b.toList) →
        x.Carries name b := fun name b present =>
      ⟨_, present, by rw [bytesToHex_length, b.toList_length], fun _ => hexDigit_of_mem_bytesToHex,
        hexToBytes_bytesToHex _⟩
    rw [c.postEncrypted_of_ok P encrypts dec completed.init,
      c.receive_of_carries P dec x completed (carries _ _ hn) (carries _ _ ht), body,
      aesEaxEncrypt_of_ok P peer c.key encrypted, aesEaxDecrypt_of_ok P dec c.key decrypts]
    exact congrArg (Option.getD · []) (P.eax.decrypt_encrypt c.key _ p)

/-- A reply whose headers and chunks arrive mixed, with a repeated header and an empty chunk. -/
def sampleExchange : HttpExchange where
  init := true
  events := [.onHeader (literal "tag") (literal "none"), .onData [51], .onData [],
    .onHeader (literal "NONCE") (literal "00000000000000000000000000000000"), .other,
    .onHeader (literal "Tag") (literal "1619EF2e3d96120dcaafbebc9d170f7e"), .onData [134]]
  performed := true
  status := 200

theorem post_encrypted_exact_sample :
    (AgentClient.postEncrypted samplePsa ⟨[], sampleKey, []⟩ sampleRun sampleRun sampleExchange
      (bytes "poll")).2 = bytes "hi" := by
  have exact := post_encrypted_exact samplePsa ⟨[], sampleKey, []⟩ sampleRun sampleRun (by decide)
    (by decide) (bytes "poll") sampleExchange
  have delivered := exact.1 .zero sampleTag
    ⟨rfl, rfl, by decide, by decide⟩
    ⟨bytes "00000000000000000000000000000000", rfl, rfl, by decide +kernel, by decide⟩
    ⟨bytes "1619EF2e3d96120dcaafbebc9d170f7e", rfl, rfl, by decide +kernel, by decide⟩
    (by decide)
  have accepted : aesEaxDecrypt samplePsa sampleRun sampleKey .zero sampleTag sampleExchange.body =
      some (bytes "hi") := by decide
  exact Option.some.inj (delivered.symm.trans accepted)

/-- The calls before the cipher's own four. -/
def setupCalls : List PsaCall :=
  [.generateRandom, .importMacKey, .macNonce, .macHeader, .importCtrKey]

theorem succeeds_encryptCalls (r : PsaRun) : r.Succeeds encryptCalls ↔
    r.Succeeds setupCalls ∧ r.Succeeds cipherCalls ∧ r.ok .macCiphertext := by
  simp only [PsaRun.Succeeds, encryptCalls, decryptCalls, setupCalls, cipherCalls, List.cons_append,
    List.nil_append, List.forall_mem_cons, List.not_mem_nil, false_implies, implies_true, and_true]
  tauto

section Failure

variable (enc : PsaRun) (data : Bytes)

/-- A failing call before the cipher's leaves the ciphertext empty. -/
theorem ciphertext_of_setup_failure (failed : ¬ enc.Succeeds setupCalls) :
    (aesEaxEncrypt P enc c.key data).ciphertext = [] := by
  cases random : enc.ok .generateRandom with
  | false => simp [aesEaxEncrypt, random]
  | true =>
    cases macKey : enc.ok .importMacKey with
    | false => simp [aesEaxEncrypt, random, macKey]
    | true =>
      cases macNonce : enc.ok .macNonce with
      | false => simp [aesEaxEncrypt, omacT_eq, random, macKey, macNonce]
      | true =>
        cases macHeader : enc.ok .macHeader with
        | false => simp [aesEaxEncrypt, omacT_eq, random, macKey, macNonce, macHeader]
        | true =>
          cases imported : enc.ok .importCtrKey with
          | false =>
            simp [aesEaxEncrypt, omacT_eq, random, macKey, macNonce, macHeader,
              ctrCrypt_of_import_failure P enc c.key imported]
          | true =>
            simp [PsaRun.Succeeds, setupCalls, random, macKey, macNonce,
              macHeader, imported] at failed

/-- A failing cipher call leaves the enlarged buffer behind. -/
theorem ciphertext_of_cipher_failure (setup : enc.Succeeds setupCalls)
    (failed : ¬ enc.Succeeds cipherCalls) :
    (aesEaxEncrypt P enc c.key data).ciphertext.length = data.length + 16 := by
  simp only [PsaRun.Succeeds, setupCalls, List.forall_mem_cons] at setup
  obtain ⟨random, macKey, macNonce, macHeader, imported, -⟩ := setup
  have left := ctrCrypt_of_cipher_failure P enc c.key imported failed
    (P.cmac c.key (omacInput 0 enc.nonce.toList)) data []
  simp [aesEaxEncrypt, omacT_eq, random, macKey, macNonce, macHeader, left]

/-- A failing last MAC clears the ciphertext again. -/
theorem ciphertext_of_mac_failure (setup : enc.Succeeds setupCalls)
    (cipher : enc.Succeeds cipherCalls) (failed : enc.ok .macCiphertext = false) :
    (aesEaxEncrypt P enc c.key data).ciphertext = [] := by
  simp only [PsaRun.Succeeds, setupCalls, List.forall_mem_cons] at setup
  obtain ⟨random, macKey, macNonce, macHeader, imported, -⟩ := setup
  simp [aesEaxEncrypt, omacT_eq, random, macKey, macNonce, macHeader, failed,
    ctrCrypt_of_ok P enc c.key imported cipher]

theorem postEncrypted_of_empty (full : data ≠ [])
    (empty : (aesEaxEncrypt P enc c.key data).ciphertext = []) (dec : PsaRun) (x : HttpExchange) :
    c.postEncrypted P enc dec x data = (none, []) := by
  simp [postEncrypted, empty, full]

/-- Failures are detected, and successes have the plaintext's length, exactly when no call of the
cipher fails after the calls before it have succeeded. -/
theorem failed_encryption_detected_iff (full : data ≠ []) :
    (((∃ call ∈ encryptCalls, enc.ok call = false) →
        (aesEaxEncrypt P enc c.key data).ciphertext = [] ∧
          ∀ dec x, c.postEncrypted P enc dec x data = (none, [])) ∧
      (enc.Succeeds encryptCalls → (aesEaxEncrypt P enc c.key data).ciphertext ≠ [] ∧
        (aesEaxEncrypt P enc c.key data).ciphertext.length = data.length)) ↔
      (enc.Succeeds setupCalls → enc.Succeeds cipherCalls) := by
  constructor
  · rintro ⟨detected, -⟩ setup
    by_contra failed
    obtain ⟨call, member, fails⟩ : ∃ call ∈ cipherCalls, enc.ok call = false := by
      simpa [PsaRun.Succeeds] using failed
    have member : call ∈ encryptCalls := by
      simp only [cipherCalls, List.mem_cons] at member
      simp only [encryptCalls, decryptCalls, cipherCalls, List.mem_append, List.mem_cons]
      tauto
    have length := c.ciphertext_of_cipher_failure P enc data setup failed
    rw [(detected ⟨call, member, fails⟩).1] at length
    simp at length
  · intro condition
    refine ⟨?_, fun ok => ?_⟩
    · rintro ⟨call, member, fails⟩
      have empty : (aesEaxEncrypt P enc c.key data).ciphertext = [] := by
        by_cases setup : enc.Succeeds setupCalls
        · have mac : enc.ok .macCiphertext = false := by
            by_contra mac
            have ok := (succeeds_encryptCalls enc).mpr ⟨setup, condition setup, by simpa using mac⟩
            rw [ok call member] at fails
            cases fails
          exact c.ciphertext_of_mac_failure P enc data setup (condition setup) mac
        · exact c.ciphertext_of_setup_failure P enc data setup
      exact ⟨empty, c.postEncrypted_of_empty P enc data full empty⟩
    · have length : (aesEaxEncrypt P enc c.key data).ciphertext.length = data.length := by
        rw [aesEaxEncrypt_of_ok P enc c.key ok]
        exact P.eax.crypt_length c.key _ data
      refine ⟨fun empty => full ?_, length⟩
      rw [empty] at length
      exact List.length_eq_zero_iff.mp length.symm

end Failure

/-- The sample run with one call failing. -/
def sampleFailing (call : PsaCall) : PsaRun := { sampleRun with ok := (· != call) }

theorem failed_encryption_detected_sample :
    (aesEaxEncrypt samplePsa (sampleFailing .macCiphertext) sampleKey (bytes "hi")).ciphertext =
      [] :=
  (((failed_encryption_detected_iff samplePsa ⟨[], sampleKey, []⟩ (sampleFailing .macCiphertext)
    (bytes "hi") (by decide)).mpr fun _ => by decide).1 ⟨.macCiphertext, by decide⟩).1

/-- A failing finish is not noticed: the buffer is sent. -/
theorem failed_finish_is_transmitted :
    (sampleFailing .cipherFinish).ok .cipherFinish = false ∧
      (aesEaxEncrypt samplePsa (sampleFailing .cipherFinish) sampleKey (bytes "hi")).ciphertext ≠
        [] ∧
      (AgentClient.postEncrypted samplePsa ⟨[], sampleKey, []⟩ (sampleFailing .cipherFinish)
        sampleRun
        sampleExchange (bytes "hi")).1.isSome := by
  decide

end AgentClient

end Stembot
