import Mathlib.Data.Stream.Init
import Stembot.Agent.Authentication
import Stembot.Agent.Cipher

/-!
# The cipher on a device

A device that keeps keys with their attributes and one cipher operation, refuses
what they do not permit, and may fail any call but the initialisation and the
clean-up, whose results are dropped. Run on it, the programs compute what the
functions of the calls' outcomes do, and leave nothing behind.
-/

namespace Stembot

open Library Program

/-- The cipher operation of a device; an operation that has started keeps what it has not
handed out. -/
inductive DeviceCipher where
  | setUp (key : Key)
  | started (key : Key) (iv : Block) (consumed : Nat) (kept : Bytes)
  | failed

/-- `splits` says how much an update hands out of what it has; `faults`, call by call, whether the
call fails if it may, and what it then leaves in its output buffer. -/
structure PsaDevice where
  keys : PsaKeyId → Option (PsaKeyAttributes × Key)
  lastId : PsaKeyId
  operation : Option DeviceCipher
  nonces : Stream' Block
  splits : Stream' Nat
  faults : Stream' (Option Bytes)

/-- The calls that may fail. The others are served whatever is due: the code drops their results,
and a key whose destruction fails is beyond this device. -/
def PsaOp.fallible : PsaOp → Bool
  | .cryptoInit | .cipherAbort | .destroyKey _ => false
  | _ => true

namespace PsaDevice

variable (P : Psa) (d : PsaDevice)

/-- The key, if it is there and may be used so. -/
def granted (id : PsaKeyId) (alg : PsaAlgorithm) (use : PsaKeyUsage → Bool) : Option Key :=
  (d.keys id).bind fun (attrs, key) =>
    if attrs.bits = 256 ∧ attrs.algorithm = alg ∧ use attrs.usage = true then some key else none

/-- A call that meets no fault. -/
def serve : (op : PsaOp) → op.Res × PsaDevice
  | .cryptoInit => ((), d)
  | .generateRandom => (some d.nonces.head, { d with nonces := d.nonces.tail })
  | .importKey attrs key =>
    (some (d.lastId + 1), { d with
      keys := Function.update d.keys (d.lastId + 1) (some (attrs, key))
      lastId := d.lastId + 1 })
  | .macCompute id alg input =>
    (if alg = .cmac then (d.granted id alg PsaKeyUsage.signMessage).map fun key =>
      P.cmac key input else none, d)
  | .cipherEncryptSetup id alg =>
    match d.operation, (if alg = .ctr then d.granted id alg PsaKeyUsage.encrypt else none) with
    | none, some key => (true, { d with operation := some (.setUp key) })
    | _, _ => (false, d)
  | .cipherSetIv iv =>
    match d.operation with
    | some (.setUp key) => (true, { d with operation := some (.started key iv 0 []) })
    | _ => (false, { d with operation := some .failed })
  | .cipherUpdate input outputSize =>
    match d.operation with
    | some (.started key iv consumed kept) =>
      let all := kept ++ input.mapIdx fun i b => b ^^^ P.keystream key iv (consumed + i)
      let n := min d.splits.head all.length
      if n ≤ outputSize then
        ((true, all.take n), { d with
          operation := some (.started key iv (consumed + input.length) (all.drop n))
          splits := d.splits.tail })
      else ((false, []), { d with operation := some .failed })
    | _ => ((false, []), { d with operation := some .failed })
  | .cipherFinish outputSize =>
    match d.operation with
    | some (.started _ _ _ kept) =>
      if kept.length ≤ outputSize then ((true, kept), { d with operation := none })
      else ((false, []), { d with operation := some .failed })
    | _ => ((false, []), { d with operation := some .failed })
  | .cipherAbort => ((), { d with operation := none })
  | .destroyKey id => ((), { d with keys := Function.update d.keys id none })

/-- A call that fails. -/
def refuse (spill : Bytes) : (op : PsaOp) → op.Res × PsaDevice
  | .generateRandom | .macCompute _ _ _ | .importKey _ _ => (none, d)
  | .cipherEncryptSetup _ _ => (false, d)
  | .cipherSetIv _ => (false, { d with operation := some .failed })
  | .cipherUpdate _ _ | .cipherFinish _ => ((false, spill), { d with operation := some .failed })
  | .cryptoInit | .cipherAbort | .destroyKey _ => ((), d)

def answer : Handler PsaOp PsaOp.Res PsaDevice := fun op d =>
  let later := { d with faults := d.faults.tail }
  match d.faults.head with
  | some spill => if op.fallible then later.refuse spill op else later.serve P op
  | none => later.serve P op

section Calls

/-- The next call succeeds. -/
def willing : Bool := d.faults.head.isNone

/-- What the next call leaves in its buffer when it fails. -/
def spilled : Bytes := d.faults.head.getD []

/-- The device behind a call. -/
def behind (operation : Option DeviceCipher) : PsaDevice :=
  { d with operation, faults := d.faults.tail }

variable {P : Psa} {d : PsaDevice}

theorem willing_iff : d.willing = true ↔ d.faults.head = none := by simp [willing]

theorem answer_of_willing (willing : d.willing = true) (op : PsaOp) :
    answer P op d = { d with faults := d.faults.tail }.serve P op := by
  simp only [answer, willing_iff.mp willing]

theorem answer_of_unwilling (unwilling : d.willing = false) {op : PsaOp}
    (fallible : op.fallible = true) :
    answer P op d = { d with faults := d.faults.tail }.refuse d.spilled op := by
  obtain ⟨spill, fault⟩ : ∃ spill, d.faults.head = some spill := by
    rwa [willing, Option.isNone_eq_false_iff, Option.isSome_iff_exists] at unwilling
  simp only [answer, spilled, fault, fallible, if_true, Option.getD_some]

theorem answer_of_infallible {op : PsaOp} (infallible : op.fallible = false) :
    answer P op d = { d with faults := d.faults.tail }.serve P op := by
  simp only [answer, infallible, Bool.false_eq_true, if_false]
  split <;> rfl

theorem answer_cipherAbort : answer P .cipherAbort d = ((), d.behind none) :=
  answer_of_infallible rfl

theorem answer_destroyKey (id : PsaKeyId) : answer P (.destroyKey id) d =
    ((), { d with keys := Function.update d.keys id none, faults := d.faults.tail }) :=
      answer_of_infallible rfl

theorem answer_setup (idle : d.operation = none) {id : PsaKeyId} {key : Key}
    (granted : d.granted id .ctr PsaKeyUsage.encrypt = some key) :
    answer P (.cipherEncryptSetup id .ctr) d =
      (d.willing, d.behind (if d.willing then some (.setUp key) else none)) := by
  cases h : d.willing with
  | true =>
    rw [answer_of_willing h]
    have same : ({ d with faults := d.faults.tail } : PsaDevice).granted id .ctr
        PsaKeyUsage.encrypt = some key :=
      granted
    simp only [serve, if_true, same]
    simp only [idle, behind]
  | false =>
    rw [answer_of_unwilling h rfl]
    simp [refuse, behind, idle]

theorem answer_setIv {key : Key} (ready : d.operation = some (.setUp key)) (iv : Block) :
    answer P (.cipherSetIv iv) d =
      (d.willing, d.behind (some (if d.willing then .started key iv 0 [] else .failed))) := by
  cases h : d.willing with
  | true =>
    rw [answer_of_willing h]
    simp [serve, ready, behind]
  | false =>
    rw [answer_of_unwilling h rfl]
    simp [refuse, behind]

/-- The output of an operation that is given all its input at once. -/
def stream (P : Psa) (key : Key) (iv : Block) (input : Bytes) : Bytes :=
  input.mapIdx fun i b => b ^^^ P.keystream key iv i

@[simp] theorem length_stream (key : Key) (iv : Block) (input : Bytes) :
    (stream P key iv input).length = input.length := List.length_mapIdx

theorem answer_update {key : Key} {iv : Block} (ready : d.operation = some (.started key iv 0 []))
    (input : Bytes) :
    let n := min d.splits.head input.length
    answer P (.cipherUpdate input (input.length + 16)) d =
      if d.willing then
        ((true, (stream P key iv input).take n),
          { d.behind (some (.started key iv input.length ((stream P key iv input).drop n))) with
            splits := d.splits.tail })
      else ((false, d.spilled), d.behind (some .failed)) := by
  cases h : d.willing with
  | true =>
    rw [answer_of_willing h]
    have room : min d.splits.head input.length ≤ input.length + 16 := by omega
    simp [serve, ready, behind, stream, room]
  | false =>
    rw [answer_of_unwilling h rfl]
    simp [refuse, behind]

theorem answer_finish {key : Key} {iv : Block} {consumed outputSize : Nat} {kept : Bytes}
    (ready : d.operation = some (.started key iv consumed kept)) (room : kept.length ≤ outputSize) :
    answer P (.cipherFinish outputSize) d =
      if d.willing then ((true, kept), d.behind none)
      else ((false, d.spilled), d.behind (some .failed)) := by
  cases h : d.willing with
  | true =>
    rw [answer_of_willing h]
    simp [serve, ready, behind, room]
  | false =>
    rw [answer_of_unwilling h rfl]
    simp [refuse, behind]

end Calls

section Runs

variable {P : Psa} {d : PsaDevice}

/-- The device `n` calls later. -/
def later (d : PsaDevice) (n : Nat) : PsaDevice := { d with faults := d.faults.drop n }

/-- What a cipher operation leaves as it is. -/
structure Restores (d d' : PsaDevice) : Prop where
  keys : d'.keys = d.keys
  lastId : d'.lastId = d.lastId
  operation : d'.operation = none
  nonces : d'.nonces = d.nonces

theorem run_abort (output : Bytes) :
    (Cipher.abort output).run (answer P) d = ((false, output), d.behind none) := by
  simp [Cipher.abort, answer_cipherAbort]

/-- How the last two calls of a cipher operation go. -/
structure Outputs (d : PsaDevice) (r : PsaRun) : Prop where
  update : r.ok .cipherUpdate = d.willing
  finish : r.ok .cipherFinish = (d.later 1).willing
  split : r.split = d.splits.head
  spill : r.spill = if d.willing then (d.later 1).spilled else d.spilled

theorem run_cipherOutput {r : PsaRun} (outputs : d.Outputs r) {key : Key} {iv : Block}
    (ready : d.operation = some (.started key iv 0 [])) (imported : r.ok .importCtrKey = true)
    (setup : r.ok .cipherSetup = true) (setIv : r.ok .cipherSetIv = true) (input output : Bytes) :
    let ran := (Cipher.cipherOutput input (resize output (input.length + 16))).run (answer P) d
    ran.1 = ctrCrypt P r key iv input output ∧ d.Restores ran.2 ∧
      (ran.1.1 = true → ran.2.faults = d.faults.drop 2) := by
  obtain ⟨update, finish, split, spill⟩ := outputs
  intro ran
  have first := answer_update (P := P) ready input
  rw [← update, ← split] at first
  rw [← update] at spill
  cases updated : r.ok .cipherUpdate with
  | false =>
    simp only [updated, Bool.false_eq_true, if_false] at first spill
    have stopped : ran = ((false, writeAt (resize output (input.length + 16)) 0 d.spilled),
        (d.behind (some .failed)).behind none) := by
      simp [ran, Cipher.cipherOutput, first, run_abort]
    rw [stopped]
    exact ⟨by simp [ctrCrypt, imported, setup, setIv, updated, spill], ⟨rfl, rfl, rfl, rfl⟩,
      fun h => Bool.noConfusion h⟩
  | true =>
    simp only [updated, if_true] at first spill
    let n := min r.split input.length
    obtain ⟨d', next, operation, restores, faults⟩ : ∃ d' : PsaDevice,
        answer P (.cipherUpdate input (input.length + 16)) d =
        ((true, (stream P key iv input).take n), d') ∧
        d'.operation = some (.started key iv input.length ((stream P key iv input).drop n)) ∧
        d.Restores (d'.behind none) ∧ d'.faults = d.faults.drop 1 :=
      ⟨_, first, rfl, ⟨rfl, rfl, rfl, rfl⟩, rfl⟩
    have taken : ((stream P key iv input).take n).length = n := by
      rw [List.length_take, length_stream]
      omega
    have room : ((stream P key iv input).drop n).length ≤ input.length + 16 - n := by
      rw [List.length_drop, length_stream]
      omega
    have second := answer_finish (P := P) operation room
    have willing : d'.willing = r.ok .cipherFinish := by
      rw [finish, PsaDevice.willing, faults]
      rfl
    have spilled : d'.spilled = r.spill := by
      rw [spill, PsaDevice.spilled, faults]
      rfl
    rw [willing, spilled] at second
    cases finished : r.ok .cipherFinish with
    | false =>
      simp only [finished, Bool.false_eq_true, if_false] at second
      have stopped : ran = ((false, writeAt (writeAt (resize output (input.length + 16)) 0
          ((stream P key iv input).take n)) n r.spill),
          (d'.behind (some .failed)).behind none) := by
        simp only [ran, Cipher.cipherOutput]
        rw [run_issue_bind next, taken]
        simp only [Bool.not_true, Bool.false_eq_true, if_false]
        rw [run_issue_bind second]
        simp [run_abort]
      rw [stopped]
      refine ⟨?_, ⟨restores.keys, restores.lastId, rfl, restores.nonces⟩,
        fun h => Bool.noConfusion h⟩
      simp [ctrCrypt, imported, setup, setIv, updated, finished, stream, n]
    | true =>
      simp only [finished, if_true] at second
      have stopped : ran = ((true, resize (writeAt (writeAt (resize output (input.length + 16)) 0
          ((stream P key iv input).take n)) n ((stream P key iv input).drop n))
          (n + ((stream P key iv input).drop n).length)), d'.behind none) := by
        simp only [ran, Cipher.cipherOutput]
        rw [run_issue_bind next, taken]
        simp only [Bool.not_true, Bool.false_eq_true, if_false]
        rw [run_issue_bind second]
        simp
      rw [stopped]
      refine ⟨?_, restores, fun _ => ?_⟩
      · simp [ctrCrypt, imported, setup, setIv, updated, finished, stream, n]
      · rw [behind, faults]
        rfl

/-- How the calls of a cipher operation go. -/
structure Operates (d : PsaDevice) (r : PsaRun) : Prop where
  setup : r.ok .cipherSetup = d.willing
  setIv : r.ok .cipherSetIv = (d.later 1).willing
  outputs : (d.later 2).Outputs r

theorem Outputs.of_same {d' : PsaDevice} {r : PsaRun} (outputs : d.Outputs r)
    (faults : d'.faults = d.faults) (splits : d'.splits = d.splits) : d'.Outputs r := by
  have willing : ∀ n, (d'.later n).willing = (d.later n).willing := fun n => by
    rw [PsaDevice.willing, PsaDevice.willing, later, later, faults]
  have spilled : ∀ n, (d'.later n).spilled = (d.later n).spilled := fun n => by
    rw [PsaDevice.spilled, PsaDevice.spilled, later, later, faults]
  constructor
  · exact outputs.update.trans (willing 0).symm
  · exact outputs.finish.trans (willing 1).symm
  · rw [outputs.split, splits]
  · have first : d'.spilled = d.spilled := spilled 0
    have now : d'.willing = d.willing := willing 0
    rw [outputs.spill, spilled 1, first, now]

theorem run_cipherWith {r : PsaRun} (operates : d.Operates r)
    (idle : d.operation = none) {ctrKey : PsaKeyId} {key : Key}
    (granted : d.granted ctrKey .ctr PsaKeyUsage.encrypt = some key)
    (imported : r.ok .importCtrKey = true) (iv : Block) (input output : Bytes) :
    let ran := (Cipher.cipherWith ctrKey iv input output).run (answer P) d
    ran.1 = ctrCrypt P r key iv input output ∧ d.Restores ran.2 ∧
      (ran.1.1 = true → ran.2.faults = d.faults.drop 4) := by
  intro ran
  have first := answer_setup (P := P) idle granted
  rw [← operates.setup] at first
  cases setup : r.ok .cipherSetup with
  | false =>
    simp only [setup, Bool.false_eq_true, if_false] at first
    have stopped : ran = ((false, resize output (input.length + 16)), d.behind none) := by
      simp only [ran, Cipher.cipherWith]
      rw [run_issue_bind first]
      rfl
    rw [stopped]
    exact ⟨by simp [ctrCrypt, imported, setup], ⟨rfl, rfl, rfl, rfl⟩, fun h => Bool.noConfusion h⟩
  | true =>
    simp only [setup, if_true] at first
    have second := answer_setIv (P := P) (d := d.behind (some (.setUp key))) rfl iv
    have willing : (d.behind (some (.setUp key))).willing = r.ok .cipherSetIv := operates.setIv.symm
    rw [willing] at second
    cases setIv : r.ok .cipherSetIv with
    | false =>
      simp only [setIv, Bool.false_eq_true, if_false] at second
      have stopped : ran = ((false, resize output (input.length + 16)),
          ((d.behind (some (.setUp key))).behind (some .failed)).behind none) := by
        simp only [ran, Cipher.cipherWith]
        rw [run_issue_bind first]
        simp only [Bool.not_true, Bool.false_eq_true, if_false]
        rw [run_issue_bind second]
        simp [run_abort]
      rw [stopped]
      exact ⟨by
        simp [ctrCrypt, imported, setup, setIv], ⟨rfl, rfl, rfl, rfl⟩, fun h => Bool.noConfusion h⟩
    | true =>
      simp only [setIv, if_true] at second
      let started := (d.behind (some (.setUp key))).behind (some (.started key iv 0 []))
      have onward : ran = (Cipher.cipherOutput input (resize output (input.length + 16))).run
          (answer P) started := by
        simp only [ran, Cipher.cipherWith]
        rw [run_issue_bind first]
        simp only [Bool.not_true, Bool.false_eq_true, if_false]
        rw [run_issue_bind second]
        simp [started]
      have outputs : started.Outputs r := operates.outputs.of_same rfl rfl
      obtain ⟨value, restores, faults⟩ :=
        run_cipherOutput (P := P) outputs rfl imported setup setIv input output
      rw [onward]
      exact ⟨value, ⟨restores.keys, restores.lastId, restores.operation, restores.nonces⟩, faults⟩

end Runs

/-- No operation is under way, and identifiers that come next are free. -/
structure Idle (d : PsaDevice) : Prop where
  operation : d.operation = none
  free : ∀ id, d.lastId < id → d.keys id = none

section Directions

variable {P : Psa} {d : PsaDevice}

/-- The body that `withKey` runs gives the key back in the state it was given it in. -/
structure Returns (d d' : PsaDevice) : Prop where
  idle : d'.Idle
  keys : d'.keys = d.keys
  nonces : d'.nonces = d.nonces
  lastId : d.lastId ≤ d'.lastId

/-- The device once a key has been imported. -/
def imported (d : PsaDevice) (attrs : PsaKeyAttributes) (key : Key) : PsaDevice :=
  { d with
    keys := Function.update d.keys (d.lastId + 1) (some (attrs, key))
    lastId := d.lastId + 1
    faults := d.faults.tail }

theorem returns_of_restores {d' : PsaDevice} (idle : d.Idle) (restores : d.Restores d') :
    d.Returns d' := by
  obtain ⟨keys, lastId, operation, nonces⟩ := restores
  refine ⟨⟨operation, ?_⟩, keys, nonces, Nat.le_of_eq lastId.symm⟩
  rw [keys, lastId]
  exact idle.free

theorem Idle.imported (idle : d.Idle) (attrs : PsaKeyAttributes) (key : Key) :
    (d.imported attrs key).Idle := by
  constructor
  · exact idle.operation
  · intro id above
    have later : d.lastId + 1 < id := above
    have other : id ≠ d.lastId + 1 := Nat.ne_of_gt later
    exact (Function.update_of_ne other _ _).trans (idle.free id (Nat.lt_of_succ_lt later))

theorem granted_imported (alg : PsaAlgorithm) (usage : PsaKeyUsage) (key : Key)
    {use : PsaKeyUsage → Bool} (used : use usage = true) :
    (d.imported (Cipher.aes256 alg usage) key).granted (d.lastId + 1) alg use = some key := by
  simp [granted, imported, Cipher.aes256, used]

theorem answer_import (attrs : PsaKeyAttributes) (key : Key) : answer P (.importKey attrs key) d =
    if d.willing then (some (d.lastId + 1), d.imported attrs key) else (none, d.later 1) := by
  cases h : d.willing with
  | true => rw [answer_of_willing h]; rfl
  | false => rw [answer_of_unwilling h rfl]; rfl

/-- A key is imported, used and destroyed again, or could not be imported. -/
theorem run_withKey {α : Type} (idle : d.Idle) (key : Key) (alg : PsaAlgorithm)
    (usage : PsaKeyUsage) (failed : α) (body : PsaKeyId → PsaProgram α)
    (returns : d.willing = true → (d.imported (Cipher.aes256 alg usage) key).Returns
      ((body (d.lastId + 1)).run (answer P) (d.imported (Cipher.aes256 alg usage) key)).2) :
    let used := (body (d.lastId + 1)).run (answer P) (d.imported (Cipher.aes256 alg usage) key)
    let ran := (Cipher.withKey key alg usage failed body).run (answer P) d
    ran.1 = (if d.willing then used.1 else failed) ∧ d.Returns ran.2 ∧
      (d.willing = true → ran.2.faults = used.2.faults.tail) := by
  intro used ran
  have first := answer_import (P := P) (d := d) (Cipher.aes256 alg usage) key
  cases willing : d.willing with
  | false =>
    simp only [willing, Bool.false_eq_true, if_false] at first
    have stopped : ran = (failed, d.later 1) := by
      simp only [ran, Cipher.withKey, Cipher.importAes256]
      rw [run_issue_bind first]
      rfl
    rw [stopped]
    exact ⟨rfl, ⟨⟨idle.operation, idle.free⟩, rfl, rfl, Nat.le_refl _⟩, nofun⟩
  | true =>
    simp only [willing, if_true] at first
    have returned := returns willing
    have onward : ran = (used.1, ((answer P (.destroyKey (d.lastId + 1)) used.2).2)) := by
      simp only [ran, Cipher.withKey, Cipher.importAes256]
      rw [run_issue_bind first]
      simp [used]
    rw [onward, answer_destroyKey]
    have restored : Function.update used.2.keys (d.lastId + 1) none = d.keys := by
      rw [returned.keys]
      simp only [PsaDevice.imported, Function.update_idem, Function.update_eq_self_iff]
      exact (idle.free _ (Nat.lt_succ_self _)).symm
    have passed : d.lastId + 1 ≤ used.2.lastId := returned.lastId
    refine ⟨rfl, ⟨⟨returned.idle.operation, ?_⟩, restored, returned.nonces,
      Nat.le_of_succ_le passed⟩, fun _ => rfl⟩
    intro id above
    have later : used.2.lastId < id := above
    rw [restored]
    exact idle.free id (Nat.lt_of_le_of_lt (Nat.le_of_succ_le passed) later)

/-- How the calls of `ctr_crypt` go. -/
structure Crypts (d : PsaDevice) (r : PsaRun) : Prop where
  importing : r.ok .importCtrKey = d.willing
  operates : (d.later 1).Operates r

theorem run_ctrCrypt {r : PsaRun} (crypts : d.Crypts r) (idle : d.Idle) (key : Key) (iv : Block)
    (input output : Bytes) :
    let ran := (Cipher.ctrCrypt key iv input output).run (answer P) d
    ran.1 = ctrCrypt P r key iv input output ∧ d.Returns ran.2 ∧
      (ran.1.1 = true → ran.2.faults = d.faults.drop 6) := by
  intro ran
  let usage : PsaKeyUsage := { encrypt := true, decrypt := true }
  let during := d.imported (Cipher.aes256 .ctr usage) key
  have granted : during.granted (d.lastId + 1) .ctr PsaKeyUsage.encrypt = some key :=
    granted_imported .ctr usage key rfl
  have operates : during.Operates r := by
    obtain ⟨setup, setIv, outputs⟩ := crypts.operates
    exact ⟨setup, setIv, outputs.of_same rfl rfl⟩
  have used (importing : d.willing = true) :=
    run_cipherWith (P := P) operates idle.operation granted
    (crypts.importing.trans importing) iv input output
  have returns (importing : d.willing = true) :=
    during.returns_of_restores (idle.imported _ key) (used importing).2.1
  obtain ⟨value, returned, faults⟩ := run_withKey idle key .ctr usage (false, output)
    (fun ctrKey => Cipher.cipherWith ctrKey iv input output) returns
  cases importing : d.willing with
  | false =>
    have missing : r.ok .importCtrKey = false := crypts.importing.trans importing
    simp only [importing, Bool.false_eq_true, if_false] at value
    refine ⟨value.trans ?_, returned, ?_⟩
    · exact (ctrCrypt_of_import_failure P r key missing iv input output).symm
    · intro ok
      rw [show ran.1 = _ from value] at ok
      cases ok
  | true =>
    obtain ⟨same, -, later⟩ := used importing
    simp only [importing, if_true] at value
    refine ⟨value.trans same, returned, ?_⟩
    intro ok
    rw [show ran.1 = _ from value] at ok
    rw [show ran.2.faults = _ from faults importing, later ok]
    rfl

theorem run_omacT {macKey : PsaKeyId} {key : Key}
    (granted : d.granted macKey .cmac PsaKeyUsage.signMessage = some key)
    {r : PsaRun} {call : PsaCall} (goes : r.ok call = d.willing) (t : UInt8) (data : Bytes) :
    (Cipher.omacT macKey t data).run (answer P) d = (omacT P r call key t data, d.later 1) := by
  rw [Cipher.omacT, run_issue, omacT, goes]
  cases h : d.willing with
  | true =>
    rw [answer_of_willing h]
    have same :
        ({ d with faults := d.faults.tail } : PsaDevice).granted macKey .cmac
        PsaKeyUsage.signMessage = some key :=
      granted
    simp only [serve, if_true, same, Option.map_some]
    rfl
  | false =>
    rw [answer_of_unwilling h rfl]
    rfl

theorem granted_of_keys {d' : PsaDevice} (keys : d'.keys = d.keys) (id : PsaKeyId)
    (alg : PsaAlgorithm) (use : PsaKeyUsage → Bool) :
    d'.granted id alg use = d.granted id alg use := by
  rw [granted, granted, keys]

theorem Returns.trans {d' d'' : PsaDevice} (first : d.Returns d') (second : d'.Returns d'') :
    d.Returns d'' :=
  ⟨second.idle, second.keys.trans first.keys, second.nonces.trans first.nonces,
    first.lastId.trans second.lastId⟩

theorem Idle.later (idle : d.Idle) (n : Nat) : d.Returns (d.later n) :=
  ⟨⟨idle.operation, idle.free⟩, rfl, rfl, Nat.le_refl _⟩

/-- How the calls go while the MAC key is there. -/
structure Authenticates (d : PsaDevice) (r : PsaRun) : Prop where
  macNonce : r.ok .macNonce = d.willing
  macHeader : r.ok .macHeader = (d.later 1).willing
  crypts : (d.later 2).Crypts r
  macCiphertext : r.ok .macCiphertext = (d.later 8).willing

/-- The two MACs and the cipher have failed, or what is left to do begins with what they gave. -/
theorem run_macsThenCtr {α : Type} {r : PsaRun} (authenticates : d.Authenticates r) (idle : d.Idle)
    {macKey : PsaKeyId} {key : Key}
    (granted : d.granted macKey .cmac PsaKeyUsage.signMessage = some key) {nonce : Block}
    {input output : Bytes} {failed : α} {rest : Block → Block → Bool × Bytes → PsaProgram α}
    {ran : α × PsaDevice} (runs : (Cipher.macsThenCtr macKey key nonce input output failed rest).run
    (answer P) d = ran) :
    ((omacT P r .macNonce key 0 nonce.toList = none ∨ omacT P r .macHeader key 1 [] = none) ∧
        ran.1 = failed ∧ d.Returns ran.2) ∨
      ∃ N H d', omacT P r .macNonce key 0 nonce.toList = some N ∧
        omacT P r .macHeader key 1 [] = some H ∧
        ran = (rest N H (ctrCrypt P r key N input output)).run (answer P) d' ∧ d.Returns d' ∧
        ((ctrCrypt P r key N input output).1 = true → r.ok .macCiphertext = d'.willing) := by
  obtain ⟨macNonce, macHeader, crypts, macCiphertext⟩ := authenticates
  have first := run_omacT (P := P) granted macNonce 0 nonce.toList
  have second : (Cipher.omacT macKey 1 []).run (answer P) (d.later 1) =
      (omacT P r .macHeader key 1 [], d.later 2) :=
    run_omacT (d := d.later 1) granted macHeader 1 []
  cases hN : omacT P r .macNonce key 0 nonce.toList with
  | none =>
    have stopped : ran = (failed, d.later 1) := by simp [← runs, Cipher.macsThenCtr, first, hN]
    rw [stopped]
    exact .inl ⟨.inl rfl, rfl, idle.later 1⟩
  | some N =>
    cases hH : omacT P r .macHeader key 1 [] with
    | none =>
      have stopped : ran = (failed, d.later 2) := by
        simp [← runs, Cipher.macsThenCtr, first, hN, second, hH]
      rw [stopped]
      exact .inl ⟨.inr rfl, rfl, idle.later 2⟩
    | some H =>
      obtain ⟨value, returns, faults⟩ :=
        run_ctrCrypt (P := P) (d := d.later 2) crypts (idle.later 2).idle key N input output
      generalize crypted :
        (Cipher.ctrCrypt key N input output).run (answer P) (d.later 2) =
        outcome at value returns faults
      have onward : ran = (rest N H outcome.1).run (answer P) outcome.2 := by
        simp [← runs, Cipher.macsThenCtr, first, hN, second, hH, crypted]
      rw [value] at onward faults
      refine .inr ⟨N, H, outcome.2, rfl, rfl, onward, (idle.later 2).trans returns, fun ok => ?_⟩
      rw [macCiphertext, PsaDevice.willing, PsaDevice.willing, faults ok]
      rfl

theorem run_encryptWith {r : PsaRun} (authenticates : d.Authenticates r) (idle : d.Idle)
    {macKey : PsaKeyId} {key : Key}
    (granted : d.granted macKey .cmac PsaKeyUsage.signMessage = some key)
    (random : r.ok .generateRandom = true) (importing : r.ok .importMacKey = true) (data : Bytes) :
    let ran := (Cipher.encryptWith macKey key data ⟨r.nonce, .zero, []⟩).run (answer P) d
    ran.1 = aesEaxEncrypt P r key data ∧ d.Returns ran.2 := by
  rw [Cipher.encryptWith_eq]
  intro ran
  rcases run_macsThenCtr (P := P) authenticates idle granted (Eq.refl ran) with
    ⟨missing, value, returns⟩ | ⟨N, H, d', hN, hH, onward, returns, willing⟩
  · refine ⟨value.trans ?_, returns⟩
    rcases missing with hN | hH
    · simp [aesEaxEncrypt, random, importing, hN]
    · simp [aesEaxEncrypt, random, importing, hH]
  · rw [onward]
    generalize crypted : ctrCrypt P r key N data [] = outcome at willing
    obtain ⟨ok, ciphertext⟩ := outcome
    cases ok with
    | false =>
      have stopped : aesEaxEncrypt P r key data = ⟨r.nonce, .zero, ciphertext⟩ := by
        simp [aesEaxEncrypt, random, importing, hN, hH, crypted]
      rw [stopped]
      exact ⟨by simp, by simpa [crypted] using returns⟩
    | true =>
      have last := run_omacT (P := P) ((granted_of_keys returns.keys _ _ _).trans granted)
        (willing rfl) 2 ciphertext
      have back : d.Returns (d'.later 1) := returns.trans (returns.idle.later 1)
      cases hM : omacT P r .macCiphertext key 2 ciphertext with
      | none =>
        have stopped : aesEaxEncrypt P r key data = ⟨r.nonce, .zero, []⟩ := by
          simp [aesEaxEncrypt, random, importing, hN, hH, crypted, hM]
        rw [stopped]
        exact ⟨by simp [last, hM], by simpa [crypted, last, hM] using back⟩
      | some M =>
        have whole : aesEaxEncrypt P r key data =
            ⟨r.nonce, .ofFn fun i => N.get i ^^^ H.get i ^^^ M.get i, ciphertext⟩ := by
          simp [aesEaxEncrypt, random, importing, hN, hH, crypted, hM]
        rw [whole]
        exact ⟨by simp [last, hM], by simpa [crypted, last, hM] using back⟩

theorem run_decryptWith {r : PsaRun} (authenticates : d.Authenticates r) (idle : d.Idle)
    {macKey : PsaKeyId} {key : Key}
    (granted : d.granted macKey .cmac PsaKeyUsage.signMessage = some key)
    (importing : r.ok .importMacKey = true) (nonce tag : Block) (ciphertext : Bytes) :
    let ran := (Cipher.decryptWith macKey key nonce tag ciphertext).run (answer P) d
    ran.1 = aesEaxDecrypt P r key nonce tag ciphertext ∧ d.Returns ran.2 := by
  rw [Cipher.decryptWith_eq]
  intro ran
  rcases run_macsThenCtr (P := P) authenticates idle granted (Eq.refl ran) with
    ⟨missing, value, returns⟩ | ⟨N, H, d', hN, hH, onward, returns, willing⟩
  · refine ⟨value.trans ?_, returns⟩
    rcases missing with hN | hH
    · simp [aesEaxDecrypt, importing, hN]
    · simp [aesEaxDecrypt, importing, hH]
  · rw [onward]
    generalize crypted : ctrCrypt P r key N ciphertext [] = outcome at willing
    obtain ⟨ok, plaintext⟩ := outcome
    cases ok with
    | false =>
      have stopped : aesEaxDecrypt P r key nonce tag ciphertext = none := by
        simp [aesEaxDecrypt, importing, hN, hH, crypted]
      rw [stopped]
      exact ⟨by simp, by simpa [crypted] using returns⟩
    | true =>
      have last := run_omacT (P := P) ((granted_of_keys returns.keys _ _ _).trans granted)
        (willing rfl) 2 ciphertext
      have back : d.Returns (d'.later 1) := returns.trans (returns.idle.later 1)
      cases hM : omacT P r .macCiphertext key 2 ciphertext with
      | none =>
        have stopped : aesEaxDecrypt P r key nonce tag ciphertext = none := by
          simp [aesEaxDecrypt, importing, hN, hH, crypted, hM]
        rw [stopped]
        exact ⟨by simp [last, hM], by simpa [crypted, last, hM] using back⟩
      | some M =>
        have whole : aesEaxDecrypt P r key nonce tag ciphertext =
            if tagDifference N H M tag ≠ 0 then none else some plaintext := by
          simp [aesEaxDecrypt, importing, hN, hH, crypted, hM]
        rw [whole]
        exact ⟨by simp [last, hM], by simpa [crypted, last, hM] using back⟩

/-- The outcomes of the calls of a direction that imports its MAC key with call number `start`. -/
def outcome (d : PsaDevice) (start : Nat) : PsaRun where
  ok
    | .cryptoInit | .cipherAbort | .destroyCtrKey | .destroyMacKey => true
    | .generateRandom => (d.later 1).willing
    | .importMacKey => (d.later start).willing
    | .macNonce => (d.later (start + 1)).willing
    | .macHeader => (d.later (start + 2)).willing
    | .importCtrKey => (d.later (start + 3)).willing
    | .cipherSetup => (d.later (start + 4)).willing
    | .cipherSetIv => (d.later (start + 5)).willing
    | .cipherUpdate => (d.later (start + 6)).willing
    | .cipherFinish => (d.later (start + 7)).willing
    | .macCiphertext => (d.later (start + 9)).willing
  nonce := d.nonces.head
  split := d.splits.head
  spill :=
    if (d.later (start + 6)).willing then (d.later (start + 7)).spilled
    else (d.later (start + 6)).spilled

theorem later_later (d : PsaDevice) (m n : Nat) : (d.later m).later n = d.later (m + n) := by
  rw [later, later, later, Stream'.drop_drop]

theorem authenticates_outcome {d' : PsaDevice} (start : Nat)
    (faults : d'.faults = d.faults.drop (start + 1)) (splits : d'.splits = d.splits) :
    d'.Authenticates (d.outcome start) := by
  have willing : ∀ n, (d.later (start + 1 + n)).willing = (d'.later n).willing := fun n => by
    rw [PsaDevice.willing, PsaDevice.willing, later, later, faults, Stream'.drop_drop]
  have spilled : ∀ n, (d.later (start + 1 + n)).spilled = (d'.later n).spilled := fun n => by
    rw [PsaDevice.spilled, PsaDevice.spilled, later, later, faults, Stream'.drop_drop]
  have outputs : ((d'.later 3).later 2).Outputs (d.outcome start) := by
    rw [later_later]
    refine ⟨willing 5, ?_, congrArg Stream'.head splits.symm, ?_⟩
    · rw [later_later]
      exact willing 6
    · rw [later_later, ← willing 5, ← spilled 5, ← spilled 6]
      rfl
  have operates : (d'.later 3).Operates (d.outcome start) := by
    refine ⟨willing 3, ?_, outputs⟩
    rw [later_later]
    exact willing 4
  have crypts : (d'.later 2).Crypts (d.outcome start) := by
    refine ⟨willing 2, ?_⟩
    rwa [later_later]
  exact ⟨willing 0, willing 1, crypts, willing 8⟩

theorem answer_cryptoInit : answer P .cryptoInit d = ((), d.later 1) := answer_of_infallible rfl

theorem answer_generateRandom : answer P .generateRandom d =
    if d.willing then (some d.nonces.head, { d.later 1 with nonces := d.nonces.tail })
    else (none, d.later 1) := by
  cases h : d.willing with
  | true => rw [answer_of_willing h]; rfl
  | false => rw [answer_of_unwilling h rfl]; rfl

theorem run_aesEaxDecrypt (idle : d.Idle) (key : Key) (nonce tag : Block) (ciphertext : Bytes) :
    let ran := (Cipher.aesEaxDecrypt key nonce tag ciphertext).run (answer P) d
    ran.1 = aesEaxDecrypt P (d.outcome 1) key nonce tag ciphertext ∧ d.Returns ran.2 := by
  intro ran
  let during := (d.later 1).imported (Cipher.aes256 .cmac { signMessage := true }) key
  have idle' := (idle.later 1).idle
  have onward : ran = _ := run_issue_bind answer_cryptoInit _
  have used (importing : (d.later 1).willing = true) := run_decryptWith (P := P) (d := during)
    (authenticates_outcome (d := d) 1 rfl rfl) (idle'.imported _ key)
    (granted_imported .cmac { signMessage := true } key rfl) importing nonce tag ciphertext
  obtain ⟨value, returned, -⟩ := run_withKey (P := P) idle' key .cmac { signMessage := true } none
    (fun macKey => Cipher.decryptWith macKey key nonce tag ciphertext) fun importing =>
    (used importing).2
  rw [onward]
  refine ⟨value.trans ?_, (idle.later 1).trans returned⟩
  cases importing : (d.later 1).willing with
  | false =>
    have missing : (d.outcome 1).ok .importMacKey = false := importing
    simp [aesEaxDecrypt, missing]
  | true =>
    simp only [if_true]
    exact (used importing).1

theorem run_aesEaxEncrypt (idle : d.Idle) (key : Key) (data : Bytes) :
    let ran := (Cipher.aesEaxEncrypt key data).run (answer P) d
    ran.1 = aesEaxEncrypt P (d.outcome 2) key data ∧ ran.2.Idle ∧ ran.2.keys = d.keys ∧
      ran.2.nonces = if (d.outcome 2).ok .generateRandom then d.nonces.tail else d.nonces := by
  intro ran
  have onward : ran = _ := run_issue_bind answer_cryptoInit _
  have second := answer_generateRandom (P := P) (d := d.later 1)
  cases random : (d.later 1).willing with
  | false =>
    simp only [random, Bool.false_eq_true, if_false] at second
    have missing : (d.outcome 2).ok .generateRandom = false := random
    rw [onward, run_issue_bind second]
    exact ⟨by simp [aesEaxEncrypt, missing], ⟨idle.operation, idle.free⟩, rfl, by rw [missing]; rfl⟩
  | true =>
    simp only [random, if_true] at second
    let drawn : PsaDevice := { (d.later 1).later 1 with nonces := (d.later 1).nonces.tail }
    have idle' : drawn.Idle := ⟨idle.operation, idle.free⟩
    let during := drawn.imported (Cipher.aes256 .cmac { signMessage := true }) key
    have used (importing : drawn.willing = true) := run_encryptWith (P := P) (d := during)
      (authenticates_outcome (d := d) 2 rfl rfl) (idle'.imported _ key)
      (granted_imported .cmac { signMessage := true } key rfl) random importing data
    obtain ⟨value, returned, -⟩ := run_withKey (P := P) idle' key .cmac { signMessage := true }
      ⟨(d.outcome 2).nonce, .zero, []⟩
      (fun macKey => Cipher.encryptWith macKey key data ⟨(d.outcome 2).nonce, .zero, []⟩)
      fun importing => (used importing).2
    rw [onward, run_issue_bind second]
    have got : (d.outcome 2).ok .generateRandom = true := random
    refine ⟨value.trans ?_, returned.idle, returned.keys, returned.nonces.trans (by rw [got]; rfl)⟩
    cases importing : drawn.willing with
    | false =>
      have missing : (d.outcome 2).ok .importMacKey = false := importing
      simp [aesEaxEncrypt, got, missing]
    | true =>
      simp only [if_true]
      exact (used importing).1

/-- A device on which nothing fails. -/
def Faultless (d : PsaDevice) : Prop := ∀ n, d.faults n = none

theorem answer_faults (op : PsaOp) : (answer P op d).2.faults = d.faults.tail := by
  have served : ∀ d : PsaDevice, (d.serve P op).2.faults = d.faults := by
    intro d
    cases op with
    | cipherEncryptSetup _ _ | cipherSetIv _ =>
      simp only [serve]
      split <;> rfl
    | cipherUpdate _ _ | cipherFinish _ =>
      simp only [serve]
      split
      · split <;> rfl
      · rfl
    | _ => rfl
  have refused : ∀ (d : PsaDevice) spill, (d.refuse spill op).2.faults = d.faults := by
    intro d spill
    cases op <;> rfl
  cases h : d.willing with
  | true =>
    rw [answer_of_willing h]
    exact served _
  | false =>
    cases fallible : op.fallible with
    | true =>
      rw [answer_of_unwilling h fallible]
      exact refused _ _
    | false =>
      rw [answer_of_infallible fallible]
      exact served _

theorem Faultless.answer {d : PsaDevice} (faultless : d.Faultless) (op : PsaOp) :
    (PsaDevice.answer P op d).2.Faultless := by
  intro n
  rw [answer_faults]
  exact faultless (n + 1)

theorem Faultless.run {α : Type} {d : PsaDevice} (faultless : d.Faultless) (p : PsaProgram α) :
    (p.run (PsaDevice.answer P) d).2.Faultless :=
  run_keeps (I := Faultless) (fun op _ faultless => faultless.answer op) p faultless

theorem outcome_succeeds (faultless : ∀ n, d.faults n = none) (start : Nat) :
    (d.outcome start).Succeeds encryptCalls := by
  have willing : ∀ n, (d.later n).willing = true := by
    intro n
    rw [willing_iff]
    exact faultless (0 + n)
  intro call member
  simp only [encryptCalls, decryptCalls, cipherCalls, List.cons_append,
    List.nil_append, List.mem_cons, List.not_mem_nil, or_false] at member
  rcases member with rfl | rfl | rfl | rfl | rfl | rfl | rfl | rfl | rfl | rfl <;> exact willing _

end Directions

end PsaDevice

/-- On a device that checks what each key permits and how much room a buffer has, and may fail any
call but the initialisation and the clean-up, the programs return what the functions of the calls'
outcomes do. They leave the keys that they found, and no operation under way. When no call fails
they compute EAX. -/
theorem cipher_refines (P : Psa) {d : PsaDevice} (idle : d.Idle) (key : Key) :
    (∀ data,
      let ran := (Cipher.aesEaxEncrypt key data).run (PsaDevice.answer P) d
      ran.1 = aesEaxEncrypt P (d.outcome 2) key data ∧ ran.2.Idle ∧ ran.2.keys = d.keys ∧
      ((∀ n, d.faults n = none) →
        ran.1 = ⟨d.nonces.head, (P.eax.encrypt key d.nonces.head.toList data).2,
          (P.eax.encrypt key d.nonces.head.toList data).1⟩)) ∧
    ∀ nonce tag ciphertext,
      let ran := (Cipher.aesEaxDecrypt key nonce tag ciphertext).run (PsaDevice.answer P) d
      ran.1 = aesEaxDecrypt P (d.outcome 1) key nonce tag ciphertext ∧
      ran.2.Idle ∧ ran.2.keys = d.keys ∧
      ((∀ n, d.faults n = none) → ran.1 = P.eax.decrypt key nonce.toList tag ciphertext) := by
  constructor
  · intro data ran
    obtain ⟨value, idle', keys, -⟩ := PsaDevice.run_aesEaxEncrypt (P := P) idle key data
    refine ⟨value, idle', keys, fun faultless => ?_⟩
    rw [show ran.1 = _ from value]
    exact aesEaxEncrypt_of_ok P _ key (PsaDevice.outcome_succeeds faultless 2) data
  · intro nonce tag ciphertext ran
    obtain ⟨value, returned⟩ := PsaDevice.run_aesEaxDecrypt (P := P) idle key nonce tag ciphertext
    refine ⟨value, returned.idle, returned.keys, fun faultless => ?_⟩
    rw [show ran.1 = _ from value]
    exact aesEaxDecrypt_of_ok P _ key (PsaDevice.outcome_succeeds faultless 1).of_cons
      nonce tag ciphertext

/-- A device without keys on which nothing fails; an update hands out one byte. -/
def samplePsaDevice : PsaDevice where
  keys _ := none
  lastId := 0
  operation := none
  nonces _ := .zero
  splits _ := 1
  faults _ := none

theorem samplePsaDevice_idle : samplePsaDevice.Idle := ⟨rfl, fun _ _ => rfl⟩

theorem cipher_refines_sample :
    ((Cipher.aesEaxDecrypt sampleKey .zero sampleTag [51, 134]).run (PsaDevice.answer samplePsa)
      samplePsaDevice).1 =
      some (bytes "hi") := by
  obtain ⟨-, -, -, computed⟩ :=
    (cipher_refines samplePsa samplePsaDevice_idle sampleKey).2 .zero sampleTag [51, 134]
  have accepted : samplePsa.eax.decrypt sampleKey Block.zero.toList sampleTag [51, 134] =
    some (bytes "hi") := by decide
  exact (computed fun _ => rfl).trans accepted

end Stembot
