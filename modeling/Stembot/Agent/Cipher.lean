import Stembot.Agent.AesEax
import Stembot.Library.Lowering

/-!
# The cipher, call by call

`aes_eax.cpp` as programs over the PSA calls, with the key identifiers that the
calls pass around. Whatever PSA answers, each key is used for what it was imported
for while it is there, and is destroyed; a cipher operation is ended or aborted.
-/

namespace Stembot

open Library Program

inductive PsaAlgorithm where
  | ctr
  | cmac
  deriving DecidableEq

structure PsaKeyUsage where
  signMessage : Bool := false
  encrypt : Bool := false
  decrypt : Bool := false

/-- The attributes of an AES key. -/
structure PsaKeyAttributes where
  bits : Nat
  algorithm : PsaAlgorithm
  usage : PsaKeyUsage

abbrev PsaKeyId := Nat

/-- The calls of the cipher. `outputSize` is the room in the buffer that is passed. -/
inductive PsaOp where
  | cryptoInit
  | generateRandom
  | importKey (attrs : PsaKeyAttributes) (key : Key)
  | macCompute (key : PsaKeyId) (alg : PsaAlgorithm) (input : Bytes)
  | cipherEncryptSetup (key : PsaKeyId) (alg : PsaAlgorithm)
  | cipherSetIv (iv : Block)
  | cipherUpdate (input : Bytes) (outputSize : Nat)
  | cipherFinish (outputSize : Nat)
  | cipherAbort
  | destroyKey (key : PsaKeyId)

/-- A call that hands out cipher output says whether it has succeeded, and what it has written. -/
abbrev PsaOp.Res : PsaOp → Type
  | .cryptoInit | .cipherAbort | .destroyKey _ => Unit
  | .generateRandom | .macCompute _ _ _ => Option Block
  | .importKey _ _ => Option PsaKeyId
  | .cipherEncryptSetup _ _ | .cipherSetIv _ => Bool
  | .cipherUpdate _ _ | .cipherFinish _ => Bool × Bytes

abbrev PsaProgram := Program PsaOp PsaOp.Res

abbrev psa (op : PsaOp) : PsaProgram op.Res := Program.issue op

/-- A PSA call with its answer. -/
abbrev PsaAnswer := Answered PsaOp PsaOp.Res

namespace Cipher

/-- The attributes `import_aes256` sets. -/
def aes256 (alg : PsaAlgorithm) (usage : PsaKeyUsage) : PsaKeyAttributes :=
  { bits := 256, algorithm := alg, usage }

def importAes256 (key : Key) (alg : PsaAlgorithm) (usage : PsaKeyUsage) :
    PsaProgram (Option PsaKeyId) :=
  psa (.importKey (aes256 alg usage) key)

/-- What is done with an imported key. Every way out of the body leads through the key's
destruction. -/
def withKey {α : Type} (key : Key) (alg : PsaAlgorithm) (usage : PsaKeyUsage) (failed : α)
    (body : PsaKeyId → PsaProgram α) : PsaProgram α := do
  match ← importAes256 key alg usage with
  | none => return failed
  | some id =>
    let result ← body id
    psa (.destroyKey id)
    return result

def omacT (macKey : PsaKeyId) (t : UInt8) (data : Bytes) : PsaProgram (Option Block) :=
  psa (.macCompute macKey .cmac (List.replicate 15 0 ++ t :: data))

/-- The label `abort`. -/
def abort (output : Bytes) : PsaProgram (Bool × Bytes) := do
  psa .cipherAbort
  return (false, output)

/-- The inner block of `ctr_crypt`. -/
def cipherOutput (input output : Bytes) : PsaProgram (Bool × Bytes) := do
  let bufSize := input.length + 16
  let (updated, part1) ← psa (.cipherUpdate input bufSize)
  let output := writeAt output 0 part1
  if !updated then return ← abort output
  let (finished, part2) ← psa (.cipherFinish (bufSize - part1.length))
  let output := writeAt output part1.length part2
  if !finished then return ← abort output
  return (true, resize output (part1.length + part2.length))

/-- `ctr_crypt` between the import of its key and the label `done`. -/
def cipherWith (ctrKey : PsaKeyId) (iv : Block) (input output : Bytes) :
    PsaProgram (Bool × Bytes) := do
  let output := resize output (input.length + 16)
  if !(← psa (.cipherEncryptSetup ctrKey .ctr)) then return (false, output)
  if !(← psa (.cipherSetIv iv)) then return ← abort output
  cipherOutput input output

/-- The success flag and the output vector. -/
def ctrCrypt (key : Key) (iv : Block) (input output : Bytes) : PsaProgram (Bool × Bytes) :=
  withKey key .ctr { encrypt := true, decrypt := true } (false, output) fun ctrKey =>
    cipherWith ctrKey iv input output

/-- `aes_eax_encrypt` from the first MAC on. -/
def encryptWith (macKey : PsaKeyId) (key : Key) (data : Bytes) (result : AesEaxResult) :
    PsaProgram AesEaxResult := do
  match ← omacT macKey 0 result.nonce.toList with
  | none => return result
  | some N =>
    match ← omacT macKey 1 [] with
    | none => return result
    | some H =>
      let (ok, ciphertext) ← ctrCrypt key N data result.ciphertext
      let result := { result with ciphertext := ciphertext }
      if !ok then return result
      match ← omacT macKey 2 result.ciphertext with
      | none => return { result with ciphertext := [] }
      | some M => return { result with tag := .ofFn fun i => N.get i ^^^ H.get i ^^^ M.get i }

def aesEaxEncrypt (key : Key) (data : Bytes) : PsaProgram AesEaxResult := do
  let result : AesEaxResult := ⟨.zero, .zero, []⟩
  psa .cryptoInit
  match ← psa .generateRandom with
  | none => return result
  | some nonce =>
    let result := { result with nonce := nonce }
    withKey key .cmac { signMessage := true } result fun macKey =>
      encryptWith macKey key data result

/-- `aes_eax_decrypt` from the first MAC on. The tag is compared after the key has
been destroyed. -/
def decryptWith (macKey : PsaKeyId) (key : Key) (nonce tag : Block) (ciphertext : Bytes) :
    PsaProgram (Option Bytes) := do
  match ← omacT macKey 0 nonce.toList with
  | none => return none
  | some N =>
    match ← omacT macKey 1 [] with
    | none => return none
    | some H =>
      let (ok, plaintext) ← ctrCrypt key N ciphertext []
      if !ok then return none
      match ← omacT macKey 2 ciphertext with
      | none => return none
      | some M => return if tagDifference N H M tag ≠ 0 then none else some plaintext

def aesEaxDecrypt (key : Key) (nonce tag : Block) (ciphertext : Bytes) :
    PsaProgram (Option Bytes) := do
  psa .cryptoInit
  withKey key .cmac { signMessage := true } none fun macKey =>
    decryptWith macKey key nonce tag ciphertext

/-- What both directions begin with: two MACs, and the cipher. -/
def macsThenCtr {α : Type} (macKey : PsaKeyId) (key : Key) (nonce : Block)
    (input output : Bytes) (failed : α) (rest : Block → Block → Bool × Bytes → PsaProgram α) :
    PsaProgram α := do
  match ← omacT macKey 0 nonce.toList with
  | none => return failed
  | some N =>
    match ← omacT macKey 1 [] with
    | none => return failed
    | some H => rest N H (← ctrCrypt key N input output)

theorem encryptWith_eq (macKey : PsaKeyId) (key : Key) (data : Bytes) (result : AesEaxResult) :
    encryptWith macKey key data result =
      macsThenCtr macKey key result.nonce data result.ciphertext result fun N H crypted => do
        let result := { result with ciphertext := crypted.2 }
        if !crypted.1 then return result
        match ← omacT macKey 2 result.ciphertext with
        | none => return { result with ciphertext := [] }
        | some M =>
          return { result with tag := .ofFn fun i => N.get i ^^^ H.get i ^^^ M.get i } := rfl

theorem decryptWith_eq (macKey : PsaKeyId) (key : Key) (nonce tag : Block) (ciphertext : Bytes) :
    decryptWith macKey key nonce tag ciphertext =
      macsThenCtr macKey key nonce ciphertext [] none fun N H crypted => do
        if !crypted.1 then return none
        match ← omacT macKey 2 ciphertext with
        | none => return none
        | some M => return if tagDifference N H M tag ≠ 0 then none else some crypted.2 := rfl

end Cipher

/-- How far the one cipher operation is. An operation that failed waits for its abort. -/
inductive CipherStage where
  | inactive
  | setUp
  | started
  | failed
  deriving DecidableEq

/-- The keys that are imported, the last one first, and the cipher operation. -/
structure Custody where
  keys : List (PsaKeyId × PsaKeyAttributes) := []
  cipher : CipherStage := .inactive

namespace Custody

variable (c : Custody)

/-- A key is there that may be used so. -/
def Permits (id : PsaKeyId) (alg : PsaAlgorithm) (use : PsaKeyUsage → Bool) : Prop :=
  ∃ attrs, c.keys.lookup id = some attrs ∧ attrs.bits = 256 ∧ attrs.algorithm = alg ∧
  use attrs.usage = true

/-- At most two keys are there at a time, and none goes while the cipher operation is under way. -/
def Allows : PsaOp → Prop
  | .cryptoInit | .generateRandom => True
  | .importKey _ _ => c.cipher = .inactive ∧ c.keys.length ≤ 1
  | .macCompute id alg _ => alg = .cmac ∧ c.Permits id alg PsaKeyUsage.signMessage
  | .cipherEncryptSetup id alg =>
    c.cipher = .inactive ∧ alg = .ctr ∧ c.Permits id alg PsaKeyUsage.encrypt
  | .cipherSetIv _ => c.cipher = .setUp
  | .cipherUpdate _ _ | .cipherFinish _ => c.cipher = .started
  | .cipherAbort => c.cipher = .failed
  | .destroyKey id => c.cipher = .inactive ∧ (c.keys.lookup id).isSome

def next : PsaAnswer → Custody
  | ⟨.importKey attrs _, some id⟩ => { c with keys := (id, attrs) :: c.keys }
  | ⟨.cipherEncryptSetup _ _, true⟩ => { c with cipher := .setUp }
  | ⟨.cipherSetIv _, ok⟩ => { c with cipher := if ok then .started else .failed }
  | ⟨.cipherUpdate _ _, (false, _)⟩ => { c with cipher := .failed }
  | ⟨.cipherFinish _, (ok, _)⟩ => { c with cipher := if ok then .inactive else .failed }
  | ⟨.cipherAbort, _⟩ => { c with cipher := .inactive }
  | ⟨.destroyKey id, _⟩ => { c with keys := c.keys.eraseP fun entry => entry.1 = id }
  | _ => c

end Custody

/-- The rules of the PSA interface. -/
def custody : Monitor PsaOp PsaOp.Res Custody where
  allows := Custody.Allows
  next := Custody.next

section Obeys

variable {c : Custody}

theorem Custody.permits_imported (id : PsaKeyId) (alg : PsaAlgorithm) (usage : PsaKeyUsage)
    {use : PsaKeyUsage → Bool} (used : use usage = true)
    (keys : List (PsaKeyId × PsaKeyAttributes)) :
    Custody.Permits { c with keys := (id, Cipher.aes256 alg usage) :: keys } id alg use :=
  ⟨Cipher.aes256 alg usage, by simp, rfl, rfl, used⟩

namespace Cipher

/-- A key is destroyed behind a body that gives back what it has taken. -/
theorem withKey_obeys {α : Type} (idle : c.cipher = .inactive)
    (room : c.keys.length ≤ 1) {key : Key} {alg : PsaAlgorithm} {usage : PsaKeyUsage} {failed : α}
    {body : PsaKeyId → PsaProgram α}
    (held : ∀ id, let c' := { c with keys := (id, aes256 alg usage) :: c.keys }
      custody.Obeys c' (body id) fun _ => c') :
    custody.Obeys c (withKey key alg usage failed body) fun _ => c := by
  have imported : custody.Obeys c (importAes256 key alg usage)
      fun r => r.elim c fun id => { c with keys := (id, aes256 alg usage) :: c.keys } := by
    apply Monitor.Obeys.issue
    · exact ⟨idle, room⟩
    · intro r
      cases r with
      | none => rfl
      | some id => rfl
  refine imported.bind fun r => ?_
  cases r with
  | none => exact .pure rfl
  | some id =>
    have destroyed : custody.Obeys { c with keys := (id, aes256 alg usage) :: c.keys }
      (psa (.destroyKey id))
        fun _ => c := by
      apply Monitor.Obeys.issue
      · exact ⟨idle, by simp⟩
      · intro _
        simp [custody, Custody.next]
    exact (held id).bind fun _ => destroyed.bind fun _ => .pure rfl

theorem omacT_obeys {macKey : PsaKeyId} (permitted : c.Permits macKey .cmac PsaKeyUsage.signMessage)
    (t : UInt8) (data : Bytes) : custody.Obeys c (omacT macKey t data) fun _ => c :=
  .issue ⟨rfl, permitted⟩ fun _ => rfl

theorem abort_obeys (output : Bytes) :
    custody.Obeys { c with cipher := .failed } (abort output) fun _ =>
      { c with cipher := .inactive } := by
  have aborted : custody.Obeys { c with cipher := .failed } (psa .cipherAbort)
      fun _ => { c with cipher := .inactive } := .issue rfl fun _ => rfl
  exact aborted.bind fun _ => .pure rfl

/-- The operation that has started is ended by its finish or by an abort. -/
theorem cipherOutput_obeys (input output : Bytes) :
    custody.Obeys { c with cipher := .started } (cipherOutput input output) fun _ =>
      { c with cipher := .inactive } := by
  have update : ∀ room, custody.Obeys { c with cipher := .started } (psa (.cipherUpdate input room))
      fun r => { c with cipher := if r.1 then .started else .failed } := by
    intro room
    apply Monitor.Obeys.issue
    · rfl
    · rintro ⟨ok, part⟩
      cases ok with
      | true => rfl
      | false => rfl
  have finish : ∀ room, custody.Obeys { c with cipher := .started } (psa (.cipherFinish room))
      fun r => { c with cipher := if r.1 then .inactive else .failed } :=
      fun _ => .issue rfl fun _ => rfl
  refine (update _).bind fun r => ?_
  obtain ⟨ok, part1⟩ := r
  cases ok with
  | false => exact (abort_obeys _).bind fun _ => .pure rfl
  | true =>
    refine (finish _).bind fun r => ?_
    obtain ⟨ok, part2⟩ := r
    cases ok with
    | false => exact (abort_obeys _).bind fun _ => .pure rfl
    | true => exact .pure rfl

/-- An operation whose setup fails was never begun. -/
theorem cipherWith_obeys (idle : c.cipher = .inactive) {ctrKey : PsaKeyId}
    (permitted : c.Permits ctrKey .ctr PsaKeyUsage.encrypt) (iv : Block) (input output : Bytes) :
    custody.Obeys c (cipherWith ctrKey iv input output) fun _ => c := by
  obtain ⟨keys, cipher⟩ := c
  obtain rfl : cipher = .inactive := idle
  have setup : custody.Obeys ⟨keys, .inactive⟩ (psa (.cipherEncryptSetup ctrKey .ctr))
      fun ok => ⟨keys, if ok then .setUp else .inactive⟩ := by
    apply Monitor.Obeys.issue
    · exact ⟨rfl, rfl, permitted⟩
    · intro ok
      cases ok with
      | true => rfl
      | false => rfl
  have setIv : custody.Obeys ⟨keys, .setUp⟩ (psa (.cipherSetIv iv))
      fun ok => ⟨keys, if ok then .started else .failed⟩ := .issue rfl fun _ => rfl
  refine setup.bind fun ok => ?_
  cases ok with
  | false => exact .pure rfl
  | true =>
    refine setIv.bind fun ok => ?_
    cases ok with
    | false => exact (abort_obeys (c := ⟨keys, .failed⟩) _).bind fun _ => .pure rfl
    | true => exact cipherOutput_obeys (c := ⟨keys, .started⟩) input _

theorem ctrCrypt_obeys (idle : c.cipher = .inactive) (room : c.keys.length ≤ 1)
    (key : Key) (iv : Block) (input output : Bytes) :
    custody.Obeys c (ctrCrypt key iv input output) fun _ => c := by
  apply withKey_obeys idle room
  intro id c'
  exact cipherWith_obeys (c := c') idle (Custody.permits_imported id .ctr _ rfl c.keys) iv
    input output

theorem macsThenCtr_obeys {α : Type} (idle : c.cipher = .inactive)
    (room : c.keys.length ≤ 1) {macKey : PsaKeyId}
    (permitted : c.Permits macKey .cmac PsaKeyUsage.signMessage) (key : Key) (nonce : Block)
    (input output : Bytes) (failed : α) {rest : Block → Block → Bool × Bytes → PsaProgram α}
    (later : ∀ N H crypted, custody.Obeys c (rest N H crypted) fun _ => c) :
    custody.Obeys c (macsThenCtr macKey key nonce input output failed rest) fun _ => c := by
  refine (omacT_obeys permitted 0 _).bind fun N => ?_
  cases N with
  | none => exact .pure rfl
  | some N =>
    refine (omacT_obeys permitted 1 _).bind fun H => ?_
    cases H with
    | none => exact .pure rfl
    | some H => exact (ctrCrypt_obeys idle room key N input output).bind (later N H)

theorem encryptWith_obeys (idle : c.cipher = .inactive)
    (room : c.keys.length ≤ 1) {macKey : PsaKeyId}
    (permitted : c.Permits macKey .cmac PsaKeyUsage.signMessage) (key : Key) (data : Bytes)
    (result : AesEaxResult) :
    custody.Obeys c (encryptWith macKey key data result) fun _ => c := by
  rw [encryptWith_eq]
  apply macsThenCtr_obeys idle room permitted
  intro N H crypted
  cases crypted.1 with
  | false => exact .pure rfl
  | true =>
    refine (omacT_obeys permitted 2 _).bind fun M => ?_
    cases M with
    | none => exact .pure rfl
    | some M => exact .pure rfl

theorem aesEaxEncrypt_obeys (key : Key) (data : Bytes) :
    custody.Obeys {} (aesEaxEncrypt key data) fun _ => {} := by
  have init : custody.Obeys {} (psa .cryptoInit) fun _ => {} := .issue trivial fun _ => rfl
  have random : custody.Obeys {} (psa .generateRandom) fun _ => {} := .issue trivial fun _ => rfl
  refine init.bind fun _ => random.bind fun nonce => ?_
  cases nonce with
  | none => exact .pure rfl
  | some nonce =>
    apply withKey_obeys (c := {}) rfl (Nat.zero_le 1)
    intro id c'
    exact encryptWith_obeys (c := c') rfl (Nat.le_refl 1)
      (Custody.permits_imported id .cmac _ rfl []) key data _

theorem decryptWith_obeys (idle : c.cipher = .inactive)
    (room : c.keys.length ≤ 1) {macKey : PsaKeyId}
    (permitted : c.Permits macKey .cmac PsaKeyUsage.signMessage) (key : Key) (nonce tag : Block)
    (ciphertext : Bytes) :
    custody.Obeys c (decryptWith macKey key nonce tag ciphertext) fun _ => c := by
  rw [decryptWith_eq]
  apply macsThenCtr_obeys idle room permitted
  intro N H crypted
  cases crypted.1 with
  | false => exact .pure rfl
  | true =>
    refine (omacT_obeys permitted 2 _).bind fun M => ?_
    cases M with
    | none => exact .pure rfl
    | some M => exact .pure rfl

theorem aesEaxDecrypt_obeys (key : Key) (nonce tag : Block) (ciphertext : Bytes) :
    custody.Obeys {} (aesEaxDecrypt key nonce tag ciphertext) fun _ => {} := by
  have init : custody.Obeys {} (psa .cryptoInit) fun _ => {} := .issue trivial fun _ => rfl
  refine init.bind fun _ => ?_
  apply withKey_obeys (c := {}) rfl (Nat.zero_le 1)
  intro id c'
  exact decryptWith_obeys (c := c') rfl (Nat.le_refl 1) (Custody.permits_imported id .cmac _ rfl [])
    key nonce tag
    ciphertext

end Cipher

end Obeys

namespace PsaAnswer

def imports (id : PsaKeyId) : PsaAnswer → Bool
  | ⟨.importKey _ _, some id'⟩ => id' = id
  | _ => false

def destroys (id : PsaKeyId) : PsaAnswer → Bool
  | ⟨.destroyKey id', _⟩ => id' = id
  | _ => false

def setsUp : PsaAnswer → Bool
  | ⟨.cipherEncryptSetup _ _, ok⟩ => ok
  | _ => false

/-- An operation ends with a finish that succeeds, or with an abort. -/
def ends : PsaAnswer → Bool
  | ⟨.cipherFinish _, (ok, _)⟩ => ok
  | ⟨.cipherAbort, _⟩ => true
  | _ => false

end PsaAnswer

namespace Custody

variable (c : Custody)

/-- How many times a key is there. -/
def held (id : PsaKeyId) : Nat := c.keys.countP fun entry => entry.1 = id

/-- How many cipher operations are under way. -/
def active : Nat := if c.cipher = .inactive then 0 else 1

variable {c}

theorem held_step (id : PsaKeyId) (c : Custody) (e : PsaAnswer) (allowed : c.Allows e.1) :
    c.held id + (e.imports id).toNat = (c.next e).held id + (e.destroys id).toNat := by
  obtain ⟨op, r⟩ := e
  cases op with
  | importKey attrs key =>
    cases r with
    | none => rfl
    | some id' =>
      by_cases same : id' = id <;> simp [held, next, PsaAnswer.imports, PsaAnswer.destroys, same]
  | destroyKey id' => exact Monitor.countP_eraseP allowed.2 id
  | cipherEncryptSetup _ _ => cases r <;> rfl
  | cipherUpdate _ _ =>
    obtain ⟨ok, _⟩ := r
    cases ok <;> rfl
  | _ => rfl

theorem active_step (c : Custody) (e : PsaAnswer) (allowed : c.Allows e.1) :
    c.active + e.setsUp.toNat = (c.next e).active + e.ends.toNat := by
  obtain ⟨keys, cipher⟩ := c
  obtain ⟨op, r⟩ := e
  cases op with
  | importKey _ _ => cases r <;> rfl
  | cipherEncryptSetup _ _ =>
    obtain rfl : cipher = .inactive := allowed.1
    cases r <;> rfl
  | cipherSetIv _ =>
    obtain rfl : cipher = .setUp := allowed
    cases r <;> rfl
  | cipherUpdate _ _ =>
    obtain rfl : cipher = .started := allowed
    obtain ⟨ok, _⟩ := r
    cases ok <;> rfl
  | cipherFinish _ =>
    obtain rfl : cipher = .started := allowed
    obtain ⟨ok, _⟩ := r
    cases ok <;> rfl
  | cipherAbort =>
    obtain rfl : cipher = .failed := allowed
    rfl
  | _ => rfl

end Custody

/-- The calls keep to the rules of the interface. No key is destroyed and no operation ended before
it was there, and in the end each of them has been. -/
structure Orderly (es : List PsaAnswer) : Prop where
  allowed : ∀ before e after, es = before ++ e :: after → (custody.after {} before).Allows e.1
  keysLater : ∀ id before, before <+: es →
    before.countP (PsaAnswer.destroys id) ≤ before.countP (PsaAnswer.imports id)
  keys : ∀ id, es.countP (PsaAnswer.imports id) = es.countP (PsaAnswer.destroys id)
  operationsLater : ∀ before, before <+: es →
    before.countP PsaAnswer.ends ≤ before.countP PsaAnswer.setsUp
  operations : es.countP PsaAnswer.setsUp = es.countP PsaAnswer.ends

theorem Orderly.of_accepts {es : List PsaAnswer} (accepted : custody.Accepts {} es)
    (empty : custody.after {} es = {}) :
    Orderly es := by
  have part {before : List PsaAnswer} (initial : before <+: es) : custody.Accepts {} before := by
    obtain ⟨rest, rfl⟩ := initial
    exact (Monitor.accepts_append.mp accepted).1
  have keys (id : PsaKeyId) {before : List PsaAnswer} (initial : before <+: es) :=
    (part initial).balance (Custody.held_step id)
  have operations {before : List PsaAnswer} (initial : before <+: es) :=
    (part initial).balance Custody.active_step
  constructor
  · intro before e after split
    exact accepted.allowed split
  · intro id before initial
    have balance := keys id initial
    simp only [Custody.held, List.countP_nil] at balance
    omega
  · intro id
    have balance := keys id (List.prefix_refl es)
    rw [empty] at balance
    simpa [Custody.held] using balance
  · intro before initial
    have balance := operations initial
    simp only [Custody.active, if_true] at balance
    omega
  · have balance := operations (List.prefix_refl es)
    rw [empty] at balance
    simpa [Custody.active] using balance

/-- Whatever PSA answers, the calls of an encryption and of a decryption are in order. -/
theorem cipher_orderly (key : Key) :
    (∀ data es result, (Cipher.aesEaxEncrypt key data).Traces es result → Orderly es) ∧
      ∀ nonce tag ciphertext es plaintext,
        (Cipher.aesEaxDecrypt key nonce tag ciphertext).Traces es plaintext → Orderly es := by
  constructor
  · intro data es result traced
    obtain ⟨accepted, empty⟩ := Cipher.aesEaxEncrypt_obeys key data es result traced
    exact .of_accepts accepted empty
  · intro nonce tag ciphertext es plaintext traced
    obtain ⟨accepted, empty⟩ := Cipher.aesEaxDecrypt_obeys key nonce tag
      ciphertext es plaintext traced
    exact .of_accepts accepted empty

/-- A service whose updates fail. The state is the key it imported last. -/
def faltering : Handler PsaOp PsaOp.Res PsaKeyId
  | .importKey _ _, last => (some (last + 1), last + 1)
  | .generateRandom, last | .macCompute _ _ _, last => (some .zero, last)
  | .cipherEncryptSetup _ _, last | .cipherSetIv _, last => (true, last)
  | .cipherUpdate _ _, last | .cipherFinish _, last => ((false, []), last)
  | .cryptoInit, last | .cipherAbort, last | .destroyKey _, last => ((), last)

/-- The operation that fails is aborted, and both keys are destroyed. -/
theorem cipher_orderly_sample :
    let es := (Cipher.aesEaxDecrypt (.replicate 32 0) .zero .zero (bytes "hi")).trace faltering 0
    es.countP PsaAnswer.setsUp = 1 ∧ es.countP PsaAnswer.ends = 1 ∧
      ∀ id ∈ [1, 2], es.countP (PsaAnswer.imports id) = 1 ∧
      es.countP (PsaAnswer.destroys id) = 1 := by
  intro es
  have orderly : Orderly es := (cipher_orderly (.replicate 32 0)).2 _ _ _ _ _
    (traces_run faltering _ 0)
  have setUp : es.countP PsaAnswer.setsUp = 1 := by decide
  refine ⟨setUp, orderly.operations ▸ setUp, fun id known => ?_⟩
  have imported : es.countP (PsaAnswer.imports id) = 1 := by
    rcases List.mem_pair.mp known with rfl | rfl <;> decide
  exact ⟨imported, orderly.keys id ▸ imported⟩

end Stembot
