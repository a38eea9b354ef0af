import Mathlib.Data.Vector.Basic
import Mathlib.Data.List.TakeWhile
import Mathlib.Tactic.Common

/-!
# Byte strings, C strings and fixed-size buffers

A string object is a list of bytes; a `char*` denotes the bytes in front of the
first zero. Buffers are length-indexed, so a copy cannot change their size.
-/

namespace Library

abbrev Bytes := List UInt8

/-- The bytes of a string literal. -/
def bytes (s : String) : Bytes := s.toUTF8.data.toList

@[simp] theorem bytes_inj {s t : String} : bytes s = bytes t ↔ s = t := by
  constructor
  · intro same
    exact String.toByteArray_inj.mp (ByteArray.ext (Array.toList_inj.mp same))
  · intro same
    rw [same]

/-- A zero-terminated string, without its terminator. -/
abbrev CString := { s : Bytes // 0 ∉ s }

/-- A C string literal. -/
def literal (s : String) (h : 0 ∉ bytes s := by decide) : CString := ⟨bytes s, h⟩

/-- What a `char*` to the start of `mem` denotes. -/
def cstr (mem : Bytes) : Bytes := mem.takeWhile (· != 0)

@[simp] theorem zero_notMem_cstr (mem : Bytes) : 0 ∉ cstr mem := by
  intro h
  simpa using List.mem_takeWhile_imp h

theorem cstr_append_of_notMem {s : Bytes} (h : 0 ∉ s) (t : Bytes) :
    cstr (s ++ t) = s ++ cstr t := by
  refine List.takeWhile_append_of_pos fun b hb => ?_
  simp only [bne_iff_ne]
  rintro rfl
  exact h hb

theorem cstr_of_notMem {s : Bytes} (h : 0 ∉ s) : cstr s = s := by
  simpa [cstr] using cstr_append_of_notMem h []

@[simp] theorem cstr_val (s : CString) : cstr s.1 = s.1 := cstr_of_notMem s.2

/-- The C string that a pointer to the start of `mem` points to. -/
def terminated (mem : Bytes) : CString := ⟨cstr mem, zero_notMem_cstr mem⟩

@[simp] theorem cstr_cstr (s : Bytes) : cstr (cstr s) = cstr s :=
  cstr_of_notMem (zero_notMem_cstr s)

theorem cstr_append_zero {s : Bytes} (h : 0 ∉ s) (t : Bytes) : cstr (s ++ 0 :: t) = s := by
  rw [cstr_append_of_notMem h]
  simp [cstr]

/-- What lies behind a terminator is not read. -/
theorem cstr_append_of_mem {s : Bytes} (h : 0 ∈ s) (t : Bytes) : cstr (s ++ t) = cstr s := by
  obtain ⟨front, back, rfl, first⟩ := List.eq_append_cons_of_mem h
  rw [List.append_assoc, List.cons_append, cstr_append_zero first, cstr_append_zero first]

theorem cstr_append_zeros (s : Bytes) (n : Nat) : cstr (s ++ List.replicate n 0) = cstr s := by
  by_cases h : 0 ∈ s
  · exact cstr_append_of_mem h _
  · rw [cstr_append_of_notMem h, cstr_of_notMem h]
    cases n <;> simp [cstr, List.replicate_succ]

/-- What reads as `s` is `s` itself, or `s` and anything behind a terminator. -/
theorem cstr_eq_iff {s t : Bytes} (h : 0 ∉ s) :
    cstr t = s ↔ t = s ∨ ∃ rest, t = s ++ 0 :: rest := by
  constructor
  · rintro rfl
    have split : cstr t ++ t.dropWhile (· != 0) = t := List.takeWhile_append_dropWhile
    cases tail : t.dropWhile (· != 0) with
    | nil =>
      rw [tail, List.append_nil] at split
      exact .inl split.symm
    | cons b rest =>
      have zero : b = 0 := by
        have first := List.head_dropWhile_not (· != 0)
          (show t.dropWhile (· != 0) ≠ [] by simp [tail])
        simpa [tail] using first
      subst zero
      rw [tail] at split
      exact .inr ⟨rest, split.symm⟩
  · rintro (rfl | ⟨rest, rfl⟩)
    · exact cstr_of_notMem h
    · exact cstr_append_zero h rest

/-- `strncpy(dst, src, n)`: at most `n` bytes of the C string `src`, padded with
zeros up to `n`. There is no terminator when the string fills the `n` bytes. -/
def strncpy {m : Nat} (dst : List.Vector UInt8 m) (src : Bytes) (n : Nat) (h : n ≤ m) :
    List.Vector UInt8 m :=
  ⟨(cstr src).take n ++ List.replicate (n - (cstr src).length) 0 ++ dst.toList.drop n, by
    simp only [List.length_append, List.length_take, List.length_replicate, List.length_drop,
      List.Vector.toList_length]
    omega⟩

/-- `strncpy(dst, src, sizeof(dst))`. -/
def strncpySizeof {m : Nat} (dst : List.Vector UInt8 m) (src : Bytes) : List.Vector UInt8 m :=
  strncpy dst src m le_rfl

/-- A copy over the whole buffer leaves nothing of what was there. -/
theorem strncpySizeof_eq {m : Nat} (dst dst' : List.Vector UInt8 m) (src : Bytes) :
    strncpySizeof dst src = strncpySizeof dst' src := by
  apply Subtype.ext
  have rest : ∀ buf : List.Vector UInt8 m, buf.toList.drop m = [] := by
    intro buf
    exact List.drop_of_length_le (by simp)
  change _ ++ dst.toList.drop m = _ ++ dst'.toList.drop m
  rw [rest, rest]

/-- `memcpy(buf, src, src.size())`, as far as it fits. -/
def overwrite {m : Nat} (buf : List.Vector UInt8 m) (src : Bytes) : List.Vector UInt8 m :=
  ⟨src.take m ++ buf.toList.drop src.length, by
    simp only [List.length_append, List.length_take, List.length_drop, List.Vector.toList_length]
    omega⟩

theorem overwrite_full {m : Nat} (buf : List.Vector UInt8 m) {src : Bytes} (h : src.length = m) :
    overwrite buf src = ⟨src, h⟩ := by
  apply Subtype.ext
  change src.take m ++ buf.toList.drop src.length = src
  simp [h, List.take_of_length_le]

/-- A copy leaves the buffer as it is only if the buffer begins with it. -/
theorem overwrite_eq_self_iff {m : Nat} {buf : List.Vector UInt8 m} {src : Bytes}
    (fits : src.length ≤ m) :
    overwrite buf src = buf ↔ src <+: buf.toList := by
  have copied : (overwrite buf src).toList = src ++ buf.toList.drop src.length := by
    change src.take m ++ buf.toList.drop src.length = _
    rw [List.take_of_length_le fits]
  constructor
  · intro same
    exact ⟨buf.toList.drop src.length, by rw [← copied, same]⟩
  · rintro ⟨rest, split⟩
    apply Subtype.ext
    change (overwrite buf src).toList = buf.toList
    rw [copied, ← split, List.drop_left]

/-- A string shorter than the buffer is stored with a terminator. -/
theorem cstr_strncpySizeof_of_lt {m : Nat} (dst : List.Vector UInt8 m) (src : Bytes)
    (short : (cstr src).length < m) (t : Bytes) :
    cstr ((strncpySizeof dst src).toList ++ t) = cstr src := by
  obtain ⟨k, hk⟩ : ∃ k, m - (cstr src).length = k + 1 := ⟨m - (cstr src).length - 1, by omega⟩
  change cstr (((cstr src).take m ++ List.replicate (m - (cstr src).length) 0 ++
    dst.toList.drop m) ++ t) = _
  rw [List.take_of_length_le (by omega), hk, List.replicate_succ]
  simp only [List.append_assoc, List.cons_append]
  exact cstr_append_zero (zero_notMem_cstr src) _

/-- A string at least as long as the buffer fills it, and reads go on behind it. -/
theorem cstr_strncpySizeof_of_le {m : Nat} (dst : List.Vector UInt8 m) (src : Bytes)
    (long : m ≤ (cstr src).length) (t : Bytes) :
    cstr ((strncpySizeof dst src).toList ++ t) = (cstr src).take m ++ cstr t := by
  have full : (strncpySizeof dst src).toList = (cstr src).take m := by
    change (cstr src).take m ++ List.replicate (m - (cstr src).length) 0 ++ dst.toList.drop m = _
    simp [Nat.sub_eq_zero_of_le long]
  rw [full]
  exact cstr_append_of_notMem (fun hm => zero_notMem_cstr src (List.mem_of_mem_take hm)) t

/-- A copy over the whole buffer is terminated in it if the string is shorter than the buffer. -/
theorem zero_mem_strncpySizeof_iff {m : Nat} (dst : List.Vector UInt8 m) (src : Bytes) :
    0 ∈ (strncpySizeof dst src).toList ↔ (cstr src).length < m := by
  change 0 ∈ (cstr src).take m ++ List.replicate (m - (cstr src).length) 0 ++ dst.toList.drop m ↔ _
  have text : 0 ∉ (cstr src).take m := fun h => zero_notMem_cstr src (List.mem_of_mem_take h)
  rw [List.drop_of_length_le (by simp), List.append_nil, List.mem_append,
    or_iff_right text, List.mem_replicate]
  simp [Nat.sub_ne_zero_iff_lt]

/-- What a copy into a cleared buffer reads as, up to a terminator or the end of the buffer. -/
theorem cstr_strncpy_cleared {m n : Nat} (src : Bytes) (h : n ≤ m) :
    cstr (strncpy (.replicate m 0) src n h).toList = (cstr src).take n := by
  have text : 0 ∉ (cstr src).take n := fun hm => zero_notMem_cstr src (List.mem_of_mem_take hm)
  have cleared : (List.Vector.replicate m (0 : UInt8)).toList.drop n = List.replicate (m - n) 0 :=
    List.drop_replicate
  change cstr ((cstr src).take n ++ List.replicate (n - (cstr src).length) 0 ++
    (List.Vector.replicate m (0 : UInt8)).toList.drop n) = _
  rw [cleared, cstr_append_zeros, cstr_append_zeros, cstr_of_notMem text]

/-- A buffer copied as a string reads as it did, and so does what lies behind it. -/
theorem cstr_strncpySizeof_self {m : Nat} (dst buf : List.Vector UInt8 m) (t : Bytes) :
    cstr ((strncpySizeof dst buf.toList).toList ++ t) = cstr (buf.toList ++ t) := by
  rcases (cstr_eq_iff (zero_notMem_cstr buf.toList)).mp rfl with whole | ⟨rest, split⟩
  · have size : m = (cstr buf.toList).length := by rw [← whole, buf.toList_length]
    rw [cstr_strncpySizeof_of_le dst _ size.le, List.take_of_length_le size.ge]
    conv_rhs => rw [whole]
    exact (cstr_append_of_notMem (zero_notMem_cstr _) t).symm
  · have size := congrArg List.length split
    rw [buf.toList_length, List.length_append, List.length_cons] at size
    rw [cstr_strncpySizeof_of_lt dst _ (by omega)]
    conv_rhs => rw [split, List.append_assoc, List.cons_append]
    exact (cstr_append_zero (zero_notMem_cstr _) _).symm

/-- A copy depends on its source as a string only. -/
theorem strncpySizeof_congr {m : Nat} {dst : List.Vector UInt8 m} {src src' : Bytes}
    (same : cstr src = cstr src') :
    strncpySizeof dst src = strncpySizeof dst src' := by
  apply Subtype.ext
  change (cstr src).take m ++ List.replicate (m - (cstr src).length) 0 ++ dst.toList.drop m = _
  rw [same]
  rfl

/-- What is read out of a buffer fills another one of its size in the same way. -/
theorem strncpySizeof_reread {m : Nat} (dst dst' dst'' : List.Vector UInt8 m) (src t : Bytes) :
    strncpySizeof dst (cstr ((strncpySizeof dst' src).toList ++ t)) = strncpySizeof dst'' src := by
  rw [strncpySizeof_eq dst dst'']
  apply Subtype.ext
  change (cstr _).take m ++ List.replicate (m - (cstr _).length) 0 ++ dst''.toList.drop m =
    (cstr src).take m ++ List.replicate (m - (cstr src).length) 0 ++ dst''.toList.drop m
  rcases Nat.lt_or_ge (cstr src).length m with short | long
  · rw [cstr_cstr, cstr_strncpySizeof_of_lt dst' src short]
  · have full : ((cstr src).take m).length = m := by simp [long]
    rw [cstr_cstr, cstr_strncpySizeof_of_le dst' src long, List.take_left' full,
      List.length_append, full, Nat.sub_eq_zero_of_le (Nat.le_add_right m _),
      Nat.sub_eq_zero_of_le long]

/-- A copy over all but the last byte, which then is cleared. -/
theorem strncpy_terminated {n : Nat} (dst dst' : List.Vector UInt8 (n + 1)) (src : CString) :
    (strncpy dst src.1 n (Nat.le_succ n)).set (Fin.last n) 0 =
      strncpySizeof dst' (src.1.take n) := by
  have front : cstr (src.1.take n) = src.1.take n :=
    cstr_of_notMem fun h => src.2 (List.mem_of_mem_take h)
  have filled : (src.1.take n ++ List.replicate (n - src.1.length) 0).length = n := by
    rw [List.length_append, List.length_take, List.length_replicate]
    omega
  obtain ⟨last, rest⟩ : ∃ b, dst.toList.drop n = [b] := by
    apply List.length_eq_one_iff.mp
    simp
  have padding : n + 1 - (src.1.take n).length = n - src.1.length + 1 := by
    rw [List.length_take]
    omega
  apply Subtype.ext
  change ((cstr src.1).take n ++ List.replicate (n - (cstr src.1).length) 0 ++
    dst.toList.drop n).set n 0 =
    (cstr (src.1.take n)).take (n + 1) ++
      List.replicate (n + 1 - (cstr (src.1.take n)).length) 0 ++ dst'.toList.drop (n + 1)
  rw [cstr_val, front, rest, List.set_append_right _ _ filled.le, filled, padding,
    List.replicate_succ', List.drop_of_length_le (by simp)]
  simp [List.take_take]

end Library
