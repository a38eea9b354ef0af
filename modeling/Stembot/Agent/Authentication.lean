import Stembot.Agent.EaxRefinement

/-!
# Encryption inverts decryption, and decryption is an exact gate

What the EAX rules say about the code: the two functions are mutually inverse,
and a tag is accepted exactly when it is the xor of the three CMAC values.
-/

namespace Stembot

open Library

/-- AES-256 under `SHA-256("changeme")`, on the messages of one exchange. -/
def samplePsa : Psa where
  cmac _ msg :=
    if msg = omacInput 0 (List.replicate 16 0) then
      ⟨[136, 24, 171, 108, 99, 148, 145, 56, 197, 45, 58, 103, 231, 10, 237, 149], rfl⟩
    else if msg = omacInput 1 [] then
      ⟨[20, 149, 51, 164, 253, 87, 135, 120, 219, 103, 231, 208, 88, 86, 79, 220], rfl⟩
    else if msg = omacInput 2 [51, 134] then
      ⟨[138, 148, 119, 230, 163, 85, 4, 77, 212, 229, 99, 11, 34, 75, 173, 55], rfl⟩
    else .zero
  keystream _ _ i :=
    [91, 239, 17, 201, 98, 0, 52, 224, 172, 203, 93, 19, 91, 237, 25, 65].getD i 0

/-- `SHA-256("changeme")` -/
def sampleKey : Key :=
  ⟨[5, 123, 160, 61, 108, 68, 16, 72, 99, 220, 115, 97, 254, 69, 120, 150,
    93, 24, 135, 54, 15, 144, 160, 137, 88, 130, 229, 138, 98, 72, 252, 134], rfl⟩

/-- The tag of the two bytes `hi` under the zero nonce. -/
def sampleTag : Block :=
  ⟨[22, 25, 239, 46, 61, 150, 18, 13, 202, 175, 190, 188, 157, 23, 15, 126], rfl⟩

/-- A run in which every call succeeds; the update hands out one byte. -/
def sampleRun : PsaRun := ⟨fun _ => true, .zero, 1, []⟩

section Inverse

variable (P : Psa) (key : Key)

/-- Decryption undoes encryption, and encryption undoes every accepted decryption. -/
theorem encrypt_decrypt_inverse (r r' : PsaRun) (encrypts : r.Succeeds encryptCalls)
    (decrypts : r'.Succeeds decryptCalls) :
    (∀ p, aesEaxDecrypt P r' key (aesEaxEncrypt P r key p).nonce (aesEaxEncrypt P r key p).tag
        (aesEaxEncrypt P r key p).ciphertext = some p) ∧
    ∀ tag c p, aesEaxDecrypt P r' key r.nonce tag c = some p →
      aesEaxEncrypt P r key p = ⟨r.nonce, tag, c⟩ := by
  constructor
  · intro p
    rw [aesEaxEncrypt_of_ok P r key encrypts, aesEaxDecrypt_of_ok P r' key decrypts]
    exact P.eax.decrypt_encrypt key _ p
  · intro tag c p accepted
    rw [aesEaxDecrypt_of_ok P r' key decrypts] at accepted
    rw [aesEaxEncrypt_of_ok P r key encrypts, P.eax.encrypt_of_decrypt key accepted]

theorem encrypt_decrypt_inverse_sample :
    aesEaxDecrypt samplePsa sampleRun sampleKey
      (aesEaxEncrypt samplePsa sampleRun sampleKey (bytes "hi")).nonce
        (aesEaxEncrypt samplePsa sampleRun sampleKey (bytes "hi")).tag
        (aesEaxEncrypt samplePsa sampleRun sampleKey (bytes "hi")).ciphertext = some (bytes "hi") ∧
      aesEaxEncrypt samplePsa sampleRun sampleKey (bytes "hi") = ⟨.zero, sampleTag, [51, 134]⟩ := by
  have inverse := encrypt_decrypt_inverse samplePsa sampleKey sampleRun sampleRun (by decide)
    (by decide)
  exact ⟨inverse.1 _, inverse.2 sampleTag [51, 134] (bytes "hi") (by decide)⟩

end Inverse

section Gate

variable (P : Psa) (key : Key)

/-- The xor of the three domain-separated CMAC values. -/
def Psa.tag (nonce : Block) (c : Bytes) : Block :=
  P.cmac key (omacInput 0 nonce.toList) ^^^ P.cmac key (omacInput 1 []) ^^^
  P.cmac key (omacInput 2 c)

variable {P key}

theorem accepts_iff {r : PsaRun} (ok : r.Succeeds decryptCalls) (nonce tag : Block) (c : Bytes) :
    (aesEaxDecrypt P r key nonce tag c).isSome ↔ tag = P.tag key nonce c := by
  rw [aesEaxDecrypt_of_ok P r key ok]
  exact P.eax.decrypt_isSome_iff key

/-- Two accepted pairs relate the CMAC values of their nonces and ciphertexts. -/
theorem accepted_pairs_relation {r r' : PsaRun} (ok : r.Succeeds decryptCalls)
    (ok' : r'.Succeeds decryptCalls) {nonce nonce' tag : Block} {c c' : Bytes}
    (h : (aesEaxDecrypt P r key nonce tag c).isSome)
    (h' : (aesEaxDecrypt P r' key nonce' tag c').isSome) :
    P.cmac key (omacInput 0 nonce.toList) ^^^ P.cmac key (omacInput 2 c) =
      P.cmac key (omacInput 0 nonce'.toList) ^^^ P.cmac key (omacInput 2 c') := by
  rw [aesEaxDecrypt_of_ok P r key ok] at h
  rw [aesEaxDecrypt_of_ok P r' key ok'] at h'
  exact P.eax.mac_relation key h h'

variable (P key)

/-- A plaintext is returned exactly for the one tag the three CMAC values determine; a second
pair under that tag relates CMAC values of distinct messages; and no plaintext is returned when a
call whose result is checked fails. -/
theorem decrypt_authenticates :
    (∀ r : PsaRun, r.Succeeds decryptCalls →
      (∀ nonce tag c, (aesEaxDecrypt P r key nonce tag c).isSome ↔
        ∀ i, tag.get i = (P.cmac key (omacInput 0 nonce.toList)).get i ^^^
          (P.cmac key (omacInput 1 [])).get i ^^^ (P.cmac key (omacInput 2 c)).get i) ∧
      (∀ nonce c, ∃! tag, (aesEaxDecrypt P r key nonce tag c).isSome)) ∧
    (∀ r r' : PsaRun, r.Succeeds decryptCalls → r'.Succeeds decryptCalls →
      ∀ nonce nonce' tag c c', (nonce, c) ≠ (nonce', c') →
        (aesEaxDecrypt P r key nonce tag c).isSome → (aesEaxDecrypt P r' key nonce' tag c').isSome →
        P.cmac key (omacInput 0 nonce.toList) ^^^ P.cmac key (omacInput 2 c) =
            P.cmac key (omacInput 0 nonce'.toList) ^^^ P.cmac key (omacInput 2 c') ∧
          (nonce ≠ nonce' → omacInput 0 nonce.toList ≠ omacInput 0 nonce'.toList) ∧
          (c ≠ c' → omacInput 2 c ≠ omacInput 2 c') ∧
          (nonce = nonce' → omacInput 2 c ≠ omacInput 2 c' ∧
            P.cmac key (omacInput 2 c) = P.cmac key (omacInput 2 c'))) ∧
    ∀ r : PsaRun, ¬ r.Succeeds decryptCalls →
      ∀ nonce tag c, aesEaxDecrypt P r key nonce tag c = none := by
  refine ⟨?_, ?_, ?_⟩
  · intro r ok
    constructor
    · intro nonce tag c
      rw [accepts_iff ok, List.Vector.ext_iff]
      simp only [Psa.tag, get_xor]
    · intro nonce c
      exact ⟨P.tag key nonce c, (accepts_iff ok _ _ _).mpr rfl, fun tag =>
        (accepts_iff ok _ _ _).mp⟩
  · intro r r' ok ok' nonce nonce' tag c c' different h h'
    have relation := accepted_pairs_relation ok ok' h h'
    have messages : c ≠ c' → omacInput 2 c ≠ omacInput 2 c' := fun hc same =>
      hc (omacInput_injective.mp same).2
    refine ⟨relation, fun hn same => ?_, messages, ?_⟩
    · exact hn (Subtype.ext (omacInput_injective.mp same).2)
    · rintro rfl
      have hc : c ≠ c' := fun same => different (by rw [same])
      refine ⟨messages hc, ?_⟩
      rw [LawfulXor.comm _ (P.cmac key (omacInput 2 c)),
        LawfulXor.comm _ (P.cmac key (omacInput 2 c'))] at relation
      exact xor_right_injective relation
  · intro r failed
    exact aesEaxDecrypt_of_failure P r key failed

/-- A failing `psa_destroy_key` does not keep the plaintext back. -/
theorem decrypt_ignores_destroy_failure :
    ¬ ∀ (P : Psa) (r : PsaRun) (key : Key), (∃ call, r.ok call = false) →
      ∀ nonce tag c, aesEaxDecrypt P r key nonce tag c = none := by
  intro claim
  have refused := claim samplePsa { sampleRun with ok := (· != .destroyMacKey) } sampleKey
    ⟨.destroyMacKey, rfl⟩ .zero sampleTag [51, 134]
  exact absurd refused (by decide)

end Gate

end Stembot
