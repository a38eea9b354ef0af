import Stembot.Agent.AesEax

/-!
# The cipher is EAX

Both directions of `aes_eax.cpp` compute the EAX composition of CMAC and CTR
whenever the calls they check succeed, however the output is split.
-/

namespace Stembot

open Library

@[simp] theorem length_resize (v : Bytes) (n : Nat) : (resize v n).length = n := by
  simp only [resize, List.length_append, List.length_take, List.length_replicate]
  omega

theorem resize_append (a t : Bytes) : resize (a ++ t) a.length = a := by
  simp [resize, Nat.sub_eq_zero_of_le]

@[simp] theorem length_writeAt {buf : Bytes} {off : Nat} (h : off ≤ buf.length) (src : Bytes) :
    (writeAt buf off src).length = buf.length := by
  simp only [writeAt, List.length_append, List.length_take, List.length_drop]
  omega

/-- Writing both parts one behind the other and cutting the rest leaves the two parts. -/
theorem resize_writeAt_writeAt (buf a b : Bytes) (fits : a.length + b.length ≤ buf.length) :
    resize (writeAt (writeAt buf 0 a) a.length b) (a.length + b.length) = a ++ b := by
  have first : writeAt buf 0 a = a ++ buf.drop a.length := by
    simp [writeAt, List.take_of_length_le (show a.length ≤ buf.length by omega)]
  have second : writeAt (writeAt buf 0 a) a.length b = (a ++ b) ++
      buf.drop (a.length + b.length) := by
    rw [first, writeAt, List.take_left, List.length_append, List.length_drop,
      List.take_of_length_le (show b.length ≤ a.length +
        (buf.length - a.length) - a.length by omega),
      ← List.drop_drop, List.drop_left, List.drop_drop]
  rw [second, ← List.length_append, resize_append]

def cipherCalls : List PsaCall := [.cipherSetup, .cipherSetIv, .cipherUpdate, .cipherFinish]

def decryptCalls : List PsaCall :=
  [.importMacKey, .macNonce, .macHeader, .importCtrKey] ++ cipherCalls ++ [.macCiphertext]

def encryptCalls : List PsaCall := .generateRandom :: decryptCalls

def PsaRun.Succeeds (r : PsaRun) (calls : List PsaCall) : Prop := ∀ c ∈ calls, r.ok c = true

instance (r : PsaRun) (calls : List PsaCall) : Decidable (r.Succeeds calls) :=
  inferInstanceAs (Decidable (∀ c ∈ calls, r.ok c = true))

theorem PsaRun.Succeeds.of_cons {r : PsaRun} {c : PsaCall} {calls : List PsaCall}
    (h : r.Succeeds (c :: calls)) : r.Succeeds calls := fun c hc => h c (List.mem_cons_of_mem _ hc)

theorem PsaRun.succeeds_decryptCalls (r : PsaRun) : r.Succeeds decryptCalls ↔
    r.ok .importMacKey ∧ r.ok .macNonce ∧ r.ok .macHeader ∧ r.ok .importCtrKey ∧
      r.Succeeds cipherCalls ∧ r.ok .macCiphertext := by
  simp [Succeeds, decryptCalls, cipherCalls, and_assoc]

/-- The message authenticated in domain `t`. -/
def omacInput (t : UInt8) (data : Bytes) : Bytes := List.replicate 15 0 ++ t :: data

theorem omacInput_injective {t t' : UInt8} {data data' : Bytes} :
    omacInput t data = omacInput t' data' ↔ t = t' ∧ data = data' := by
  simp [omacInput]

section Refinement

variable (P : Psa) (r : PsaRun) (key : Key)

/-- The composition that the cipher implements. -/
def Psa.eax : Eax Key Block UInt8 where
  mac k t data := P.cmac k (omacInput (.ofNat t) data)
  stream := P.keystream

theorem omacT_eq (call : PsaCall) (t : UInt8) (data : Bytes) :
    omacT P r call key t data = if r.ok call then some (P.cmac key (omacInput t data)) else none :=
      rfl

/-- With its five calls succeeding the helper yields the input under the keystream. -/
theorem ctrCrypt_of_ok (imported : r.ok .importCtrKey) (ok : r.Succeeds cipherCalls) (iv : Block)
    (input output : Bytes) :
    ctrCrypt P r key iv input output = (true, P.eax.crypt key iv input) := by
  simp only [PsaRun.Succeeds, cipherCalls, List.forall_mem_cons] at ok
  obtain ⟨setup, setIv, update, finish, -⟩ := ok
  let stream := input.mapIdx fun i b => b ^^^ P.keystream key iv i
  have length : stream.length = input.length := List.length_mapIdx
  have out1 : (stream.take (min r.split input.length)).length = min r.split input.length := by
    rw [List.length_take, length]
    omega
  have both : (stream.take (min r.split input.length)).length +
      (stream.drop (min r.split input.length)).length = input.length := by
    rw [← List.length_append, List.take_append_drop, length]
  have joined := resize_writeAt_writeAt (resize output (input.length + 16))
    (stream.take (min r.split input.length)) (stream.drop (min r.split input.length))
    (by rw [both, length_resize]; omega)
  rw [List.take_append_drop, out1] at joined
  simp only [ctrCrypt, imported, setup, setIv, update, finish, Bool.not_true, Bool.false_eq_true,
    if_false]
  exact Prod.ext rfl joined

/-- A cipher call that fails is reported, and the output keeps the size it was enlarged to. -/
theorem ctrCrypt_of_cipher_failure (imported : r.ok .importCtrKey)
    (failed : ¬ r.Succeeds cipherCalls) (iv : Block) (input output : Bytes) :
    (ctrCrypt P r key iv input output).1 = false ∧
      (ctrCrypt P r key iv input output).2.length = input.length + 16 := by
  have offset : min r.split input.length ≤ input.length + 16 := by omega
  cases setup : r.ok .cipherSetup with
  | false => simp [ctrCrypt, imported, setup]
  | true =>
    cases setIv : r.ok .cipherSetIv with
    | false => simp [ctrCrypt, imported, setup, setIv]
    | true =>
      cases update : r.ok .cipherUpdate with
      | false => simp [ctrCrypt, imported, setup, setIv, update]
      | true =>
        cases finish : r.ok .cipherFinish with
        | false => simp [ctrCrypt, imported, setup, setIv, update, finish, offset]
        | true => simp [PsaRun.Succeeds, cipherCalls, setup, setIv, update, finish] at failed

theorem ctrCrypt_of_import_failure (failed : r.ok .importCtrKey = false) (iv : Block)
    (input output : Bytes) : ctrCrypt P r key iv input output = (false, output) := by
  simp [ctrCrypt, failed]

theorem aesEaxEncrypt_of_ok (ok : r.Succeeds encryptCalls) (data : Bytes) :
    aesEaxEncrypt P r key data =
      ⟨r.nonce, (P.eax.encrypt key r.nonce.toList data).2,
        (P.eax.encrypt key r.nonce.toList data).1⟩ := by
  have random : r.ok .generateRandom := ok _ List.mem_cons_self
  obtain ⟨macKey, macNonce, macHeader, imported, cipher, macCiphertext⟩ :=
    r.succeeds_decryptCalls.mp ok.of_cons
  simp only [aesEaxEncrypt, omacT_eq, random, macKey, macNonce, macHeader, macCiphertext, if_true,
    Bool.not_true, Bool.false_eq_true, if_false, ctrCrypt_of_ok P r key imported cipher]
  rfl

theorem foldl_or_eq_zero_iff {α : Type} (f : α → UInt8) (xs : List α) (acc : UInt8) :
    xs.foldl (fun d x => d ||| f x) acc = 0 ↔ acc = 0 ∧ ∀ x ∈ xs, f x = 0 := by
  induction xs generalizing acc with
  | nil => simp
  | cons x xs ih => simp [ih, UInt8.or_eq_zero_iff, and_assoc]

/-- The accumulated difference is zero exactly when all sixteen bytes agree. -/
theorem tagDifference_eq_zero_iff (N H M tag : Block) :
    tagDifference N H M tag = 0 ↔ N ^^^ H ^^^ M = tag := by
  simp [tagDifference, foldl_or_eq_zero_iff, List.Vector.ext_iff]

theorem aesEaxDecrypt_of_ok (ok : r.Succeeds decryptCalls) (nonce tag : Block) (c : Bytes) :
    aesEaxDecrypt P r key nonce tag c = P.eax.decrypt key nonce.toList tag c := by
  obtain ⟨macKey, macNonce, macHeader, imported, cipher, macCiphertext⟩ :=
    r.succeeds_decryptCalls.mp ok
  simp only [aesEaxDecrypt, omacT_eq, macKey, macNonce, macHeader, macCiphertext, if_true,
    Bool.not_true, Bool.false_eq_true, if_false, ctrCrypt_of_ok P r key imported cipher,
    Eax.decrypt, ne_eq, tagDifference_eq_zero_iff, ite_not]
  rfl

/-- Every checked call guards the result. -/
theorem aesEaxDecrypt_of_failure (failed : ¬ r.Succeeds decryptCalls)
    (nonce tag : Block) (c : Bytes) :
    aesEaxDecrypt P r key nonce tag c = none := by
  cases macKey : r.ok .importMacKey with
  | false => simp [aesEaxDecrypt, macKey]
  | true =>
    cases macNonce : r.ok .macNonce with
    | false => simp [aesEaxDecrypt, omacT_eq, macKey, macNonce]
    | true =>
      cases macHeader : r.ok .macHeader with
      | false => simp [aesEaxDecrypt, omacT_eq, macKey, macNonce, macHeader]
      | true =>
        cases imported : r.ok .importCtrKey with
        | false =>
          simp [aesEaxDecrypt, omacT_eq, macKey, macNonce, macHeader,
            ctrCrypt_of_import_failure P r key imported]
        | true =>
          by_cases cipher : r.Succeeds cipherCalls
          · cases macCiphertext : r.ok .macCiphertext with
            | false => simp [aesEaxDecrypt, omacT_eq, macKey, macNonce, macHeader, macCiphertext]
            | true =>
              exact absurd (r.succeeds_decryptCalls.mpr
                ⟨macKey, macNonce, macHeader, imported, cipher, macCiphertext⟩) failed
          · simp [aesEaxDecrypt, omacT_eq, macKey, macNonce, macHeader,
              (ctrCrypt_of_cipher_failure P r key imported cipher _ _ _).1]

end Refinement

end Stembot
