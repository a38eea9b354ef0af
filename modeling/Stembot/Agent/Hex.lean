import Stembot.Library.CString

/-!
# Hexadecimal coding

The two helpers of `aes_eax.cpp` that carry the nonce and the tag in HTTP headers.
-/

namespace Stembot

open Library

def kHex : Bytes := bytes "0123456789abcdef"

def hexPair (b : UInt8) : Bytes :=
  [kHex.getD (b >>> 4 &&& 0xF).toNat 0, kHex.getD (b &&& 0xF).toNat 0]

def bytesToHex (data : Bytes) : Bytes := data.flatMap hexPair

def nibble (c : UInt8) : Option UInt8 :=
  if 48 ≤ c ∧ c ≤ 57 then some (c - 48)
  else if 97 ≤ c ∧ c ≤ 102 then some (c - 97 + 10)
  else if 65 ≤ c ∧ c ≤ 70 then some (c - 65 + 10)
  else none

/-- The loop over the pairs; a bad digit clears what has been decoded before it. -/
def hexLoop (out : Bytes) : Bytes → Bytes
  | hi :: lo :: rest =>
    match nibble hi, nibble lo with
    | some h, some l => hexLoop (out ++ [h <<< 4 ||| l]) rest
    | _, _ => []
  | _ => out

def hexToBytes (hex : Bytes) : Bytes := if hex.length % 2 ≠ 0 then [] else hexLoop [] hex

/-- A hexadecimal digit, in either case. -/
def HexDigit (c : UInt8) : Prop := c ∈ bytes "0123456789abcdefABCDEF"

instance : DecidablePred HexDigit := fun c => inferInstanceAs (Decidable (c ∈ bytes _))

/-- A letter in lower case, anything else as it is. -/
def lowercase (c : UInt8) : UInt8 := if 65 ≤ c ∧ c ≤ 90 then c + 32 else c

/-- A property of bytes is settled by its 256 cases. -/
theorem forall_byte {p : UInt8 → Prop} (h : ∀ i : Fin 256, p (.ofFin i)) (b : UInt8) : p b := by
  simpa using h b.toFin

theorem nibble_isSome (c : UInt8) : (nibble c).isSome ↔ HexDigit c :=
  forall_byte (p := fun c => (nibble c).isSome ↔ HexDigit c) (by decide +kernel) c

theorem exists_nibble {c : UInt8} (h : HexDigit c) : ∃ n, nibble c = some n :=
  Option.isSome_iff_exists.mp ((nibble_isSome c).mpr h)

theorem hexDigit_of_nibble {c n : UInt8} (h : nibble c = some n) : HexDigit c :=
  (nibble_isSome c).mp (Option.isSome_iff_exists.mpr ⟨n, h⟩)

/-- The two digits of a byte decode to its halves. -/
theorem nibble_hexPair (b : UInt8) : ∃ hi lo h l, hexPair b = [hi, lo] ∧ nibble hi = some h ∧
    nibble lo = some l ∧ h <<< 4 ||| l = b := by
  have halves : nibble (kHex.getD (b >>> 4 &&& 0xF).toNat 0) = some (b >>> 4 &&& 0xF) ∧
      nibble (kHex.getD (b &&& 0xF).toNat 0) = some (b &&& 0xF) ∧
      (b >>> 4 &&& 0xF) <<< 4 ||| (b &&& 0xF) = b :=
    forall_byte (p := fun b => nibble (kHex.getD (b >>> 4 &&& 0xF).toNat 0) =
      some (b >>> 4 &&& 0xF) ∧
      nibble (kHex.getD (b &&& 0xF).toNat 0) = some (b &&& 0xF) ∧
      (b >>> 4 &&& 0xF) <<< 4 ||| (b &&& 0xF) = b) (by decide +kernel) b
  exact ⟨_, _, _, _, rfl, halves⟩

theorem hexLoop_bytesToHex (out data : Bytes) : hexLoop out (bytesToHex data) = out ++ data := by
  induction data generalizing out with
  | nil => simp [bytesToHex, hexLoop]
  | cons b data ih =>
    obtain ⟨hi, lo, h, l, pair, hiDigit, loDigit, byte⟩ := nibble_hexPair b
    have step : bytesToHex (b :: data) = hi :: lo :: bytesToHex data := by simp [bytesToHex, pair]
    rw [step, hexLoop, hiDigit, loDigit]
    simp [byte, ih]

theorem bytesToHex_length (data : Bytes) : (bytesToHex data).length = 2 * data.length := by
  induction data with
  | nil => rfl
  | cons b data ih =>
    rw [bytesToHex, List.flatMap_cons, List.length_append, ← bytesToHex, ih, List.length_cons]
    simp only [hexPair, List.length_cons, List.length_nil]
    omega

theorem hexToBytes_bytesToHex (data : Bytes) : hexToBytes (bytesToHex data) = data := by
  simp [hexToBytes, bytesToHex_length, hexLoop_bytesToHex]

theorem hexDigit_of_mem_bytesToHex {data : Bytes} {c : UInt8} (h : c ∈ bytesToHex data) :
    HexDigit c := by
  obtain ⟨b, -, hc⟩ := List.mem_flatMap.mp h
  obtain ⟨hi, lo, _, _, pair, hiDigit, loDigit, -⟩ := nibble_hexPair b
  rcases List.mem_pair.mp (pair ▸ hc) with rfl | rfl
  · exact hexDigit_of_nibble hiDigit
  · exact hexDigit_of_nibble loDigit

/-- Digits decode to one byte for each pair. -/
theorem hexLoop_length (out : Bytes) {hex : Bytes} (digits : ∀ c ∈ hex, HexDigit c) :
    (hexLoop out hex).length = out.length + hex.length / 2 := by
  induction out, hex using hexLoop.induct with
  | case1 out hi lo rest h l loDigit hiDigit ih =>
    rw [hexLoop, hiDigit, loDigit]
    rw [ih fun c hc => digits c (by simp [hc])]
    simp only [List.length_append, List.length_cons, List.length_nil]
    omega
  | case2 out hi lo rest bad =>
    obtain ⟨h, hiDigit⟩ := exists_nibble (digits hi (by simp))
    obtain ⟨l, loDigit⟩ := exists_nibble (digits lo (by simp))
    exact absurd loDigit (bad h l hiDigit)
  | case3 hex out short =>
    match hex, short with
    | [], _ => simp [hexLoop]
    | [_], _ => simp [hexLoop]
    | hi :: lo :: rest, short => exact (short hi lo rest rfl).elim

/-- One bad digit anywhere leaves nothing. -/
theorem hexLoop_of_bad (out : Bytes) {hex : Bytes} (even : hex.length % 2 = 0)
    (bad : ∃ c ∈ hex, ¬ HexDigit c) : hexLoop out hex = [] := by
  induction out, hex using hexLoop.induct with
  | case1 out hi lo rest h l loDigit hiDigit ih =>
    obtain ⟨c, hc, notDigit⟩ := bad
    have later : c ∈ rest := by
      rcases List.mem_cons.mp hc with rfl | hc
      · exact (notDigit (hexDigit_of_nibble hiDigit)).elim
      rcases List.mem_cons.mp hc with rfl | hc
      · exact (notDigit (hexDigit_of_nibble loDigit)).elim
      · exact hc
    rw [hexLoop, hiDigit, loDigit]
    exact ih (by simp only [List.length_cons] at even; omega) ⟨c, later, notDigit⟩
  | case2 out hi lo rest missing =>
    rw [hexLoop]
    split
    · exact absurd ‹nibble lo = _› (missing _ _ ‹_›)
    · rfl
  | case3 hex out short =>
    match hex, short with
    | [], _ => simp at bad
    | [_], _ => simp at even
    | hi :: lo :: rest, short => exact (short hi lo rest rfl).elim

theorem hexToBytes_length {hex : Bytes} (even : hex.length % 2 = 0)
    (digits : ∀ c ∈ hex, HexDigit c) :
    (hexToBytes hex).length = hex.length / 2 := by
  simp [hexToBytes, even, hexLoop_length [] digits]

theorem hexToBytes_of_bad {hex : Bytes} (bad : ∃ c ∈ hex, ¬ HexDigit c) : hexToBytes hex = [] := by
  unfold hexToBytes
  split
  · rfl
  · exact hexLoop_of_bad [] (by omega) bad

/-- A digit stands for a number below sixteen, whose own digit it is up to case. -/
theorem digit_of_nibble {c n : UInt8} (h : nibble c = some n) :
    n < 16 ∧ kHex.getD n.toNat 0 = lowercase c := by
  have digits : ∀ n ∈ nibble c, n < 16 ∧ kHex.getD n.toNat 0 = lowercase c :=
    forall_byte (p := fun c => ∀ n ∈ nibble c, n < 16 ∧ kHex.getD n.toNat 0 = lowercase c)
    (by decide +kernel) c
  exact digits n h

/-- The halves of a byte put together from two of them. -/
theorem halves_of_lt {h l : UInt8} (high : h < 16) (low : l < 16) :
    (h <<< 4 ||| l) >>> 4 &&& 0xF = h ∧ (h <<< 4 ||| l) &&& 0xF = l := by
  have small : ∀ i j : Fin 16, let h := UInt8.ofNat i; let l := UInt8.ofNat j
      (h <<< 4 ||| l) >>> 4 &&& 0xF = h ∧ (h <<< 4 ||| l) &&& 0xF = l := by decide +kernel
  simpa using small ⟨h.toNat, high⟩ ⟨l.toNat, low⟩

theorem hexPair_of_nibbles {hi lo h l : UInt8} (hiDigit : nibble hi = some h)
    (loDigit : nibble lo = some l) :
    hexPair (h <<< 4 ||| l) = [lowercase hi, lowercase lo] := by
  obtain ⟨high, hiChar⟩ := digit_of_nibble hiDigit
  obtain ⟨low, loChar⟩ := digit_of_nibble loDigit
  obtain ⟨first, second⟩ := halves_of_lt high low
  rw [hexPair, first, second, hiChar, loChar]

/-- What the loop has decoded is written as the digits it has read, in lower case. -/
theorem bytesToHex_hexLoop (out : Bytes) {hex : Bytes} (even : hex.length % 2 = 0)
    (digits : ∀ c ∈ hex, HexDigit c) :
    bytesToHex (hexLoop out hex) = bytesToHex out ++ hex.map lowercase := by
  induction out, hex using hexLoop.induct with
  | case1 out hi lo rest h l loDigit hiDigit ih =>
    rw [hexLoop, hiDigit, loDigit]
    rw [ih (by simp only [List.length_cons] at even; omega) fun c hc => digits c (by simp [hc])]
    simp [bytesToHex, hexPair_of_nibbles hiDigit loDigit]
  | case2 out hi lo rest bad =>
    obtain ⟨h, hiDigit⟩ := exists_nibble (digits hi (by simp))
    obtain ⟨l, loDigit⟩ := exists_nibble (digits lo (by simp))
    exact absurd loDigit (bad h l hiDigit)
  | case3 hex out short =>
    match hex, short with
    | [], _ => simp [hexLoop]
    | [_], _ => simp at even
    | hi :: lo :: rest, short => exact (short hi lo rest rfl).elim

theorem hexToBytes_of_odd {hex : Bytes} (odd : hex.length % 2 ≠ 0) : hexToBytes hex = [] :=
  if_pos odd

/-- Something is decoded from digits in pairs, and from nothing else. -/
theorem hexToBytes_ne_nil_iff (hex : Bytes) :
    hexToBytes hex ≠ [] ↔ hex ≠ [] ∧ hex.length % 2 = 0 ∧ ∀ c ∈ hex, HexDigit c := by
  constructor
  · intro decoded
    have even : hex.length % 2 = 0 := by
      by_contra odd
      exact decoded (hexToBytes_of_odd odd)
    refine ⟨?_, even, ?_⟩
    · rintro rfl
      exact decoded rfl
    · by_contra bad
      push Not at bad
      exact decoded (hexToBytes_of_bad bad)
  · rintro ⟨some, even, digits⟩ none
    have length := hexToBytes_length even digits
    rw [none, List.length_nil] at length
    have := List.length_pos_iff.mpr some
    omega

theorem mem_kHex_of_mem_bytesToHex {data : Bytes} {c : UInt8} (h : c ∈ bytesToHex data) :
    c ∈ kHex := by
  have digits : ∀ b : UInt8, ∀ c ∈ hexPair b, c ∈ kHex :=
    forall_byte (p := fun b => ∀ c ∈ hexPair b, c ∈ kHex) (by decide +kernel)
  obtain ⟨b, -, hc⟩ := List.mem_flatMap.mp h
  exact digits b c hc

/-- The two codings undo each other: bytes come back as they were, and digits in lower case. Texts
that are not made of pairs of digits decode to nothing, wherever the fault is. -/
theorem hex_coding_exact :
    (∀ data, (bytesToHex data).length = 2 * data.length ∧ (∀ c ∈ bytesToHex data, c ∈ kHex) ∧
      hexToBytes (bytesToHex data) = data) ∧
    (∀ hex, (hexToBytes hex ≠ [] ↔ hex ≠ [] ∧ hex.length % 2 = 0 ∧ ∀ c ∈ hex, HexDigit c) ∧
      (hexToBytes hex ≠ [] → bytesToHex (hexToBytes hex) = hex.map lowercase)) ∧
    ∀ front c back, ¬HexDigit c → hexToBytes (front ++ c :: back) = [] := by
  refine ⟨fun data => ⟨bytesToHex_length data, fun c => mem_kHex_of_mem_bytesToHex,
    hexToBytes_bytesToHex data⟩, fun hex => ⟨hexToBytes_ne_nil_iff hex, ?_⟩, ?_⟩
  · intro decoded
    obtain ⟨-, even, digits⟩ := (hexToBytes_ne_nil_iff hex).mp decoded
    have loop : hexToBytes hex = hexLoop [] hex := if_neg (by simp [even])
    rw [loop, bytesToHex_hexLoop [] even digits]
    exact List.nil_append _
  · intro front c back notDigit
    exact hexToBytes_of_bad ⟨c, by simp, notDigit⟩

end Stembot
