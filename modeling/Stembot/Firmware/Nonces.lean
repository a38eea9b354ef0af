import Stembot.Firmware.Stack

/-!
# No nonce goes out twice

Every request that carries a ciphertext has drawn its nonce, and no other request
has drawn it, whatever fails on the way.
-/

namespace Stembot

open Library Program

section Account

/-- What was performed before the calls that are looked at. -/
theorem foldl_account (es : List HttpAnswer) (a : Account) (earlier : List (Bool × HttpRequest)) :
    es.foldl Account.next { a with performed := earlier ++ a.performed } =
      { es.foldl Account.next a with performed := earlier ++
        (es.foldl Account.next a).performed } := by
  induction es generalizing a with
  | nil => rfl
  | cons e es ih =>
    rw [List.foldl_cons, List.foldl_cons, ← ih (a.next e)]
    congr 1
    obtain ⟨op, r⟩ := e
    cases op with
    | perform _ => simp [Account.next]
    | _ => rfl

/-- The calls of one client stand for themselves. -/
theorem account_append {calls es : List HttpAnswer} (separate : Separate es) :
    (account (calls ++ es)).performed = (account calls).performed ++ (account es).performed := by
  rcases separate with rfl | ⟨url, timeoutMs, r, rest, rfl⟩
  · simp [account]
  · let begun : Account := Account.next {} ⟨.clientInit url timeoutMs, r⟩
    have reset : Account.next (account calls) ⟨.clientInit url timeoutMs, r⟩ =
        { begun with performed := (account calls).performed ++ begun.performed } := by
      simp [begun, Account.next]
    let made : HttpAnswer := ⟨.clientInit url timeoutMs, r⟩
    calc (account (calls ++ made :: rest)).performed
        = (rest.foldl Account.next (Account.next (account calls) made)).performed := by
          rw [account, List.foldl_append]
          rfl
      _ = (account calls).performed ++ (rest.foldl Account.next begun).performed := by
        rw [reset, foldl_account]

end Account

section Post

variable {P : Psa} {r : PsaRun} {key : Key} {data : Bytes}

theorem aesEaxEncrypt_nonce (random : r.ok .generateRandom = true) :
    (aesEaxEncrypt P r key data).nonce = r.nonce := by
  unfold aesEaxEncrypt
  simp only [random, Bool.not_true, Bool.false_eq_true, if_false]
  split
  · rfl
  · split
    · split
      · rfl
      · split <;> rfl
    · rfl

theorem ciphertext_of_no_nonce (missing : r.ok .generateRandom = false) :
    (aesEaxEncrypt P r key data).ciphertext = [] := by
  simp [aesEaxEncrypt, missing]

/-- The nonces of the requests that carry a ciphertext. -/
def nonces (calls : List HttpAnswer) : List (Option Bytes) :=
  (((account calls).performed.map Prod.snd).filter fun request => request.body ≠ []).map
    fun request => request.headers.lookup (bytes "Nonce")

theorem nonces_append {calls es : List HttpAnswer} (separate : Separate es) :
    nonces (calls ++ es) = nonces calls ++ nonces es := by
  simp [nonces, account_append separate]

theorem AgentClient.request_nonce (c : AgentClient) (enc : AesEaxResult) :
    (c.request enc).headers.lookup (bytes "Nonce") = some (bytesToHex enc.nonce.toList) := by
  have other : (bytes "Nonce" == bytes "Content-Type") = false := by decide
  simp [AgentClient.request, List.lookup_cons, other]

theorem AgentClient.request_of_posted {c : AgentClient} {enc dec : PsaRun}
    {x : HttpExchange} {text : Bytes} {request : HttpRequest}
    (posted : (c.postEncrypted P enc dec x text).1 = some request) :
    request = c.request (aesEaxEncrypt P enc c.key text) := by
  by_cases failed : (aesEaxEncrypt P enc c.key text).ciphertext = [] ∧ text ≠ []
  · simp [AgentClient.postEncrypted, failed] at posted
  · rw [AgentClient.postEncrypted, if_neg failed] at posted
    cases init : x.init with
    | false => simp [init] at posted
    | true =>
      simp only [init, Bool.not_true, Bool.false_eq_true, if_false] at posted
      exact (Option.some.inj posted).symm

/-- What a post sends bears the nonce that was drawn for it, and carries nothing if none was. -/
theorem nonces_of_post {c : AgentClient} {enc dec : PsaRun} {text : Bytes} {es : List HttpAnswer}
    (performed : (account es).performed =
      ((c.postEncrypted P enc dec (account es).reported text).1.map fun request =>
        (true, request)).toList) :
    nonces es = [] ∨ enc.ok .generateRandom = true ∧
      nonces es = [some (bytesToHex enc.nonce.toList)] := by
  unfold nonces
  rw [performed]
  cases posted : (c.postEncrypted P enc dec (account es).reported text).1 with
  | none => exact .inl rfl
  | some request =>
    obtain rfl := AgentClient.request_of_posted posted
    by_cases empty : (aesEaxEncrypt P enc c.key text).ciphertext = []
    · exact .inl (by simp [AgentClient.request, empty])
    · cases random : enc.ok .generateRandom with
      | false => exact absurd (ciphertext_of_no_nonce random) empty
      | true =>
        refine .inr ⟨rfl, ?_⟩
        have carries : (c.request (aesEaxEncrypt P enc c.key text)).body ≠ [] := empty
        have drawn : (aesEaxEncrypt P enc c.key text).nonce = enc.nonce :=
          aesEaxEncrypt_nonce random
        rw [← drawn, ← c.request_nonce]
        simp [carries]

end Post

/-- The requests so far bear nonces that were drawn since `drawn`, in order and each once; those
that come next have not been borne. -/
def Borne (drawn : Stream' Block) (calls : List HttpAnswer) (next : Stream' Block)
    (later : List HttpAnswer) : Prop :=
  ∃ (k : Nat) (used : List Nat), next = drawn.drop k ∧ used.Pairwise (· < ·) ∧ (∀ i ∈ used, i < k) ∧
    nonces later = nonces calls ++ used.map fun i => some (bytesToHex (drawn i).toList)

section Borne

variable {drawn next : Stream' Block} {calls later es : List HttpAnswer}

theorem Borne.start : Borne drawn calls drawn calls := ⟨0, [], rfl, .nil, by simp, by simp⟩

/-- A nonce is drawn, and borne by the request that follows or by none. -/
theorem Borne.draw (borne : Borne drawn calls next later) (separate : Separate es)
    (bears : nonces es = [] ∨ nonces es = [some (bytesToHex next.head.toList)]) :
    Borne drawn calls next.tail (later ++ es) := by
  obtain ⟨k, used, rfl, sorted, below, same⟩ := borne
  have tail : (drawn.drop k).tail = drawn.drop (k + 1) := Stream'.tail_drop' ..
  rcases bears with silent | one
  · refine ⟨k + 1, used, tail, sorted, fun i member => Nat.lt_succ_of_lt (below i member), ?_⟩
    rw [nonces_append separate, silent, List.append_nil, same]
  · refine ⟨k + 1, used ++ [k], tail, ?_, ?_, ?_⟩
    · refine List.pairwise_append.mpr ⟨sorted, List.pairwise_singleton _ _,
        fun i member j last => ?_⟩
      rw [List.mem_singleton.mp last]
      exact below i member
    · intro i member
      rcases List.mem_append.mp member with before | last
      · exact Nat.lt_succ_of_lt (below i before)
      · rw [List.mem_singleton.mp last]
        exact Nat.lt_succ_self k
    · have head : (drawn.drop k).head = drawn k := Stream'.head_drop drawn k
      rw [nonces_append separate, one, same, List.map_append, List.append_assoc, head]
      rfl

theorem Borne.pass (borne : Borne drawn calls next later) (separate : Separate es)
    (silent : nonces es = []) :
    Borne drawn calls next (later ++ es) := by
  obtain ⟨k, used, rfl, sorted, below, same⟩ := borne
  exact ⟨k, used, rfl, sorted, below, by rw [nonces_append separate, silent, List.append_nil, same]⟩

end Borne

section Runs

variable {σ : Type} {A : ArduinoJson} {P : Psa} {h : HttpLibrary σ}

/-- One request of the task to its devices. -/
theorem serve_borne (op : ProcessorOp) {drawn : Stream' Block}
    {calls : List HttpAnswer} {b : Board σ} (idle : b.link.psa.Idle)
    (borne : Borne drawn calls b.link.psa.nonces b.link.calls) :
    let served := (Board.serve A P h op b).2
    served.link.psa.Idle ∧ Borne drawn calls served.link.psa.nonces served.link.calls := by
  intro served
  cases op with
  | post client text =>
    have onward : served = _ := congrArg Prod.snd
      (Board.run_onTransport A P h (Transport.postEncrypted client text) b)
    obtain ⟨added, logged, asked, idle', -, nonces', performed, -⟩ :=
      run_postEncrypted (P := P) (h := h) idle client text
    have separate := separate_of_asked asked
    rw [onward, logged, nonces']
    refine ⟨idle', ?_⟩
    rcases nonces_of_post performed with silent | ⟨random, one⟩
    · cases random : (b.link.psa.outcome 2).ok .generateRandom with
      | false =>
        rw [if_neg Bool.false_ne_true]
        exact borne.pass separate silent
      | true =>
        rw [if_pos rfl]
        exact borne.draw separate (.inl silent)
    · rw [if_pos random]
      exact borne.draw separate (.inr one)
  | _ => exact ⟨idle, borne⟩

end Runs

theorem bytesToHex_block_injective {a b : Block}
    (same : bytesToHex a.toList = bytesToHex b.toList) : a = b := by
  have digits := congrArg hexToBytes same
  rw [hexToBytes_bytesToHex, hexToBytes_bytesToHex] at digits
  exact Subtype.ext digits

/-- In every run of the firmware, whatever fails: the requests that carry a ciphertext bear nonces
drawn from the random number generator in this run, in the order in which they were drawn. If the
generator does not repeat itself among these draws, no two requests bear the same nonce. -/
theorem nonces_fresh {σ : Type} (A : ArduinoJson) (P : Psa) (h : HttpLibrary σ)
    (sha256 : Sha256) (maxSize n : Nat) {b : Board σ} (idle : b.link.psa.Idle) :
    let drawn := b.link.psa.nonces
    let ran := ((firmware A sha256 maxSize n).run (Board.answer A P h) b).2
    ∃ (draws : Nat) (used : List Nat), ran.link.psa.nonces = drawn.drop draws ∧
      used.Pairwise (· < ·) ∧ (∀ i ∈ used, i < draws) ∧
      nonces ran.link.calls = nonces b.link.calls ++
      used.map (fun i => some (bytesToHex (drawn i).toList)) ∧
      ((∀ i < draws, ∀ j < draws, drawn i = drawn j → i = j) → nonces b.link.calls = [] →
        (nonces ran.link.calls).Nodup) := by
  intro drawn ran
  have onward : ran = _ := congrArg Prod.snd (Board.run_firmware A P h sha256 maxSize n b)
  have kept := run_keeps (h := Board.serve A P h)
    (I := fun b' : Board σ => b'.link.psa.Idle ∧
      Borne drawn b.link.calls b'.link.psa.nonces b'.link.calls)
    (fun op _ inv => serve_borne op inv.1 inv.2) (startProcessor A sha256 maxSize n)
      ⟨idle, Borne.start⟩
  rw [← onward] at kept
  obtain ⟨-, draws, used, left, sorted, below, same⟩ := kept
  refine ⟨draws, used, left, sorted, below, same, fun distinct none => ?_⟩
  rw [same, none, List.nil_append]
  have apart : used.Nodup := sorted.imp fun below => Nat.ne_of_lt below
  refine apart.map_on fun i member j member' equal => ?_
  exact distinct i (below i member) j (below j member')
    (bytesToHex_block_injective (Option.some.inj equal))

/-- The first three blocks differ. -/
def sampleGenerator : Stream' Block :=
  fun i => List.Vector.replicate 16 (if i < 3 then UInt8.ofNat i else 0)

def sampleDraws : Board Unit :=
  let b := sampleBoard (sampleEntries sampleUuid sampleKey)
  { b with link.psa.nonces := sampleGenerator }

theorem sampleGenerator_apart {i j : Nat} (first : i < 3) (second : j < 3)
    (same : sampleGenerator i = sampleGenerator j) : i = j := by
  interval_cases i <;> interval_cases j <;> first | rfl | exact absurd same (by decide)

theorem sampleGenerator_eq {i : Nat} (same : sampleGenerator i = sampleGenerator 2) : i = 2 := by
  by_cases early : i < 3
  · exact sampleGenerator_apart early (by decide) same
  · have zero : sampleGenerator i = List.Vector.replicate 16 0 := by simp [sampleGenerator, early]
    exact absurd (zero.symm.trans same) (by decide)

/-- Two polls draw two nonces, and bear both. -/
theorem nonces_fresh_sample :
    let ran :=
      ((firmware textLibrary sampleSha256 0 2).run (Board.answer textLibrary samplePsa sampleHttp)
      sampleDraws).2
    (nonces ran.link.calls).Nodup ∧ (nonces ran.link.calls).length = 2 := by
  have idle : sampleDraws.link.psa.Idle := ⟨rfl, fun _ _ => rfl⟩
  have fresh := nonces_fresh textLibrary samplePsa sampleHttp sampleSha256 0 2 idle
  dsimp only at fresh
  obtain ⟨draws, used, left, -, -, -, apart⟩ := fresh
  have next : (sampleGenerator.drop draws).head = sampleGenerator 2 := by
    rw [show sampleGenerator.drop draws = _ from left.symm]
    decide +kernel
  rw [Stream'.head_drop] at next
  obtain rfl := sampleGenerator_eq next
  refine ⟨apart (fun i first j second same => ?_) rfl, by decide +kernel⟩
  exact sampleGenerator_apart (first.trans (by decide)) (second.trans (by decide)) same

end Stembot
