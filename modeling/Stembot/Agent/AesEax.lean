import Stembot.Library.CString
import Stembot.Library.Eax

/-!
# AES-256-EAX

`aes_eax.cpp` over the PSA calls it makes. The primitives are functions of their
inputs; how one invocation goes (which calls succeed, the random nonce, how the
cipher output is split) is a `PsaRun`.
-/

namespace Stembot

open Library

abbrev Key := List.Vector UInt8 32
abbrev Block := List.Vector UInt8 16

/-- CMAC and the CTR keystream of AES-256. -/
structure Psa where
  cmac : Key → Bytes → Block
  keystream : Key → Block → Nat → UInt8

/-- The PSA calls of one encryption or decryption, in the order they are made. -/
inductive PsaCall where
  | cryptoInit
  | generateRandom
  | importMacKey
  | macNonce
  | macHeader
  | importCtrKey
  | cipherSetup
  | cipherSetIv
  | cipherUpdate
  | cipherFinish
  | cipherAbort
  | destroyCtrKey
  | macCiphertext
  | destroyMacKey
  deriving DecidableEq

/-- `split` bytes are handed out by the update, the others by the finish; `spill` is what a
failing one of them leaves in the buffer. -/
structure PsaRun where
  ok : PsaCall → Bool
  nonce : Block
  split : Nat
  spill : Bytes

def Block.zero : Block := List.Vector.replicate 16 0

/-- `std::vector::resize` -/
def resize (v : Bytes) (n : Nat) : Bytes := v.take n ++ List.replicate (n - v.length) 0

def writeAt (buf : Bytes) (off : Nat) (src : Bytes) : Bytes :=
  buf.take off ++ src.take (buf.length - off) ++ buf.drop (off + src.length)

section Primitives

variable (P : Psa) (r : PsaRun)

def omacT (call : PsaCall) (key : Key) (t : UInt8) (data : Bytes) : Option Block :=
  if r.ok call then some (P.cmac key (List.replicate 15 0 ++ t :: data)) else none

/-- The success flag and the output vector, which keeps its enlarged size on a failure. -/
def ctrCrypt (key : Key) (iv : Block) (input output : Bytes) : Bool × Bytes :=
  if !r.ok .importCtrKey then (false, output) else
  let output := resize output (input.length + 16)
  if !r.ok .cipherSetup then (false, output) else
  if !r.ok .cipherSetIv then (false, output) else
  if !r.ok .cipherUpdate then (false, writeAt output 0 r.spill) else
  let stream := input.mapIdx fun i b => b ^^^ P.keystream key iv i
  let out1 := min r.split input.length
  let output := writeAt output 0 (stream.take out1)
  if !r.ok .cipherFinish then (false, writeAt output out1 r.spill) else
  let output := writeAt output out1 (stream.drop out1)
  let out2 := (stream.drop out1).length
  (true, resize output (out1 + out2))

structure AesEaxResult where
  nonce : Block
  tag : Block
  ciphertext : Bytes

/-- The results of `psa_crypto_init`, `psa_cipher_abort` and `psa_destroy_key` are not looked at. -/
def aesEaxEncrypt (key : Key) (data : Bytes) : AesEaxResult :=
  let result : AesEaxResult := ⟨.zero, .zero, []⟩
  if !r.ok .generateRandom then result else
  let result := { result with nonce := r.nonce }
  if !r.ok .importMacKey then result else
  match omacT P r .macNonce key 0 result.nonce.toList, omacT P r .macHeader key 1 [] with
  | some N, some H =>
    let (ok, ciphertext) := ctrCrypt P r key N data result.ciphertext
    let result := { result with ciphertext := ciphertext }
    if !ok then result else
    match omacT P r .macCiphertext key 2 result.ciphertext with
    | none => { result with ciphertext := [] }
    | some M => { result with tag := .ofFn fun i => N.get i ^^^ H.get i ^^^ M.get i }
  | _, _ => result

/-- The constant-time comparison: the differences of all bytes, or-ed together. -/
def tagDifference (N H M tag : Block) : UInt8 :=
  (List.finRange 16).foldl (fun diff i =>
    diff ||| ((N.get i ^^^ H.get i ^^^ M.get i) ^^^ tag.get i)) 0

def aesEaxDecrypt (key : Key) (nonce tag : Block) (ciphertext : Bytes) : Option Bytes :=
  if !r.ok .importMacKey then none else
  match omacT P r .macNonce key 0 nonce.toList, omacT P r .macHeader key 1 [] with
  | some N, some H =>
    let (ok, plaintext) := ctrCrypt P r key N ciphertext []
    if !ok then none else
    match omacT P r .macCiphertext key 2 ciphertext with
    | none => none
    | some M => if tagDifference N H M tag ≠ 0 then none else some plaintext
  | _, _ => none

end Primitives

end Stembot
