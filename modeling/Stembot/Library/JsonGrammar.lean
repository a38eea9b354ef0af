import Stembot.Library.Json

/-!
# The grammar of JSON text

Which texts spell which trees, what document a tree stands for, and what is left
of it for a reader that stops at a container nested too deep or at a numeral it
cannot read. A control character stands for itself too, and a surrogate comes in
a pair.
-/

namespace Library

namespace Json

/-- The tree of a text: numerals as they are spelled, and members in their order,
repeated or not. -/
inductive Tree where
  | null
  | bool (b : Bool)
  | num (numeral : Bytes)
  | str (s : Bytes)
  | arr (items : List Tree)
  | obj (members : List (Bytes × Tree))

/-- What holds of the parts of a tree holds of the whole. -/
@[elab_as_elim] theorem Tree.induction {P : Tree → Prop} (null : P .null) (bool : ∀ b, P (.bool b))
    (num : ∀ s, P (.num s)) (str : ∀ s, P (.str s)) (arr : ∀ xs, (∀ x ∈ xs, P x) → P (.arr xs))
    (obj : ∀ ms : List (Bytes × Tree), (∀ m ∈ ms, P m.2) → P (.obj ms)) (t : Tree) : P t := by
  -- One motive each for a tree, a list of items, a list of members and a member.
  refine @Tree.rec P (fun xs => ∀ x ∈ xs, P x) (fun ms => ∀ m ∈ ms, P m.2) (fun m => P m.2)
    null bool num str arr obj nofun ?_ nofun ?_ (fun _ _ holds => holds) t
  · intro x xs head tail y member
    rcases List.mem_cons.mp member with rfl | member
    · exact head
    · exact tail y member
  · intro m ms head tail m' member
    rcases List.mem_cons.mp member with rfl | member
    · exact head
    · exact tail m' member

def isBlank (b : UInt8) : Bool := b = 32 || b = 9 || b = 10 || b = 13

def Blank (s : Bytes) : Prop := ∀ b ∈ s, isBlank b = true

/-- A part of the text with blanks around it. -/
def Padded (P : Bytes → Prop) (s : Bytes) : Prop :=
  ∃ before part behind, s = before ++ (part ++ behind) ∧ Blank before ∧ Blank behind ∧ P part

theorem Padded.of_part {P : Bytes → Prop} {s : Bytes} (part : P s) : Padded P s :=
  ⟨[], s, [], by simp, nofun, nofun, part⟩

def isDigit (b : UInt8) : Bool := 48 ≤ b && b ≤ 57

def Digits (s : Bytes) : Prop := s ≠ [] ∧ ∀ b ∈ s, isDigit b = true

/-- A sign, an integer without leading zeros, a fraction and an exponent. -/
def Numeral (s : Bytes) : Prop :=
  ∃ sign int fraction exponent, s = sign ++ (int ++ (fraction ++ exponent)) ∧
    (sign = [] ∨ sign = [45]) ∧
    (int = [48] ∨ Digits int ∧ int.head? ≠ some 48) ∧
    (fraction = [] ∨ ∃ digits, fraction = 46 :: digits ∧ Digits digits) ∧
    (exponent = [] ∨ ∃ e sign digits, exponent = e :: (sign ++ digits) ∧ (e = 101 ∨ e = 69) ∧
      (sign = [] ∨ sign = [43] ∨ sign = [45]) ∧ Digits digits)

/-- The bytes a numeral is made of. -/
def isNumeric (b : UInt8) : Bool :=
  isDigit b || b = 43 || b = 45 || b = 46 || b = 69 || b = 101

/-- The byte that a letter behind a backslash stands for. -/
def unescape (e : UInt8) : Option UInt8 :=
  if e = 34 ∨ e = 92 ∨ e = 47 then some e
  else if e = 98 then some 8
  else if e = 102 then some 12
  else if e = 110 then some 10
  else if e = 114 then some 13
  else if e = 116 then some 9
  else none

def hexDigit (b : UInt8) : Option Nat :=
  if isDigit b then some (b.toNat - 48)
  else if 97 ≤ b ∧ b ≤ 102 then some (b.toNat - 87)
  else if 65 ≤ b ∧ b ≤ 70 then some (b.toNat - 55)
  else none

/-- Four hexadecimal digits. -/
def codeUnit (a b c d : UInt8) : Option Nat := do
  return (← hexDigit a) * 4096 + (← hexDigit b) * 256 + (← hexDigit c) * 16 + (← hexDigit d)

def HighSurrogate (u : Nat) : Prop := 0xD800 ≤ u ∧ u < 0xDC00

def LowSurrogate (u : Nat) : Prop := 0xDC00 ≤ u ∧ u < 0xE000

instance (u : Nat) : Decidable (HighSurrogate u) := inferInstanceAs (Decidable (_ ∧ _))

instance (u : Nat) : Decidable (LowSurrogate u) := inferInstanceAs (Decidable (_ ∧ _))

/-- The code point of a pair of surrogates. -/
def codePoint (high low : Nat) : Nat := 0x10000 + (high - 0xD800) * 1024 + (low - 0xDC00)

/-- The UTF-8 bytes of a code point. -/
def utf8 (c : Nat) : Bytes :=
  if c < 0x80 then [.ofNat c]
  else if c < 0x800 then [.ofNat (0xC0 + c / 64), .ofNat (0x80 + c % 64)]
  else if c < 0x10000 then
    [.ofNat (0xE0 + c / 4096), .ofNat (0x80 + c / 64 % 64), .ofNat (0x80 + c % 64)]
  else
    [.ofNat (0xF0 + c / 262144), .ofNat (0x80 + c / 4096 % 64), .ofNat (0x80 + c / 64 % 64),
      .ofNat (0x80 + c % 64)]

/-- The bytes of a string, and how they are spelled between the quotes. -/
inductive Escaped : Bytes → Bytes → Prop
  | nil : Escaped [] []
  | plain {b : UInt8} {t s : Bytes} : b ≠ 0 → b ≠ 34 → b ≠ 92 → Escaped t s →
      Escaped (b :: t) (b :: s)
  | escape {e b : UInt8} {t s : Bytes} : unescape e = some b → Escaped t s →
      Escaped (b :: t) (92 :: e :: s)
  | unit {a b c d : UInt8} {u : Nat} {t s : Bytes} : codeUnit a b c d = some u →
      ¬HighSurrogate u → ¬LowSurrogate u → Escaped t s →
      Escaped (utf8 u ++ t) (92 :: 117 :: a :: b :: c :: d :: s)
  | pair {a b c d a' b' c' d' : UInt8} {high low : Nat} {t s : Bytes} :
      codeUnit a b c d = some high → HighSurrogate high →
      codeUnit a' b' c' d' = some low → LowSurrogate low → Escaped t s →
      Escaped (utf8 (codePoint high low) ++ t)
        (92 :: 117 :: a :: b :: c :: d :: 92 :: 117 :: a' :: b' :: c' :: d' :: s)

def Quoted (t s : Bytes) : Prop := ∃ body, s = 34 :: (body ++ [34]) ∧ Escaped t body

mutual

/-- The text, without blanks around it, spells the tree. -/
def Spelled : Tree → Bytes → Prop
  | .null, s => s = bytes "null"
  | .bool b, s => s = bytes (if b then "true" else "false")
  | .num numeral, s => s = numeral ∧ Numeral numeral
  | .str t, s => Quoted t s
  | .arr xs, s => ∃ body, s = 91 :: (body ++ [93]) ∧ ItemsSpelled xs body
  | .obj ms, s => ∃ body, s = 123 :: (body ++ [125]) ∧ MembersSpelled ms body

def ItemsSpelled : List Tree → Bytes → Prop
  | [], s => Blank s
  | x :: xs, s => (xs = [] ∧ Padded (fun v => Spelled x v) s) ∨
    xs ≠ [] ∧ ∃ item rest, s = item ++ 44 :: rest ∧ Padded (fun v => Spelled x v) item ∧
      ItemsSpelled xs rest

def MembersSpelled : List (Bytes × Tree) → Bytes → Prop
  | [], s => Blank s
  | (k, x) :: ms, s => ∃ key rest, s = key ++ 58 :: rest ∧ Padded (Quoted k) key ∧
    ((ms = [] ∧ Padded (fun v => Spelled x v) rest) ∨
      ms ≠ [] ∧ ∃ value rest', rest = value ++ 44 :: rest' ∧ Padded (fun v => Spelled x v) value ∧
        MembersSpelled ms rest')

end

/-- The text spells the tree. -/
def Spells (s : Bytes) (t : Tree) : Prop := Padded (Spelled t) s

/-- The object of a list of members; a repeated key replaces the earlier value. -/
def collect (ms : List (Bytes × Json)) : Json :=
  .obj (ms.foldl (fun acc m => insert m.1 m.2 acc) [])

/-- How a reader takes a numeral: whether it has to stop there, and the number it makes of it. -/
abbrev Numerals := Bytes → Bool × Decimal

namespace Tree

section Value

variable (number : Numerals)

mutual

/-- The document that a tree stands for. -/
def value : Tree → Json
  | .null => .null
  | .bool b => .bool b
  | .num numeral => .num (number numeral).2
  | .str s => .str s
  | .arr xs => .arr (valueItems xs)
  | .obj ms => collect (valueMembers ms)

def valueItems : List Tree → List Json
  | [] => []
  | x :: xs => value x :: valueItems xs

def valueMembers : List (Bytes × Tree) → List (Bytes × Json)
  | [] => []
  | (k, x) :: ms => (k, value x) :: valueMembers ms

end

mutual

/-- Whether a reader has to stop, and the document it has made until then. A container nested
deeper than the limit is left empty. -/
def kept : Nat → Tree → Bool × Json
  | _, .null => (false, .null)
  | _, .bool b => (false, .bool b)
  | _, .num numeral => ((number numeral).1, .num (number numeral).2)
  | _, .str s => (false, .str s)
  | 0, .arr _ => (true, .arr [])
  | n + 1, .arr xs => ((keptItems n xs).1, .arr (keptItems n xs).2)
  | 0, .obj _ => (true, .obj [])
  | n + 1, .obj ms => ((keptMembers n ms).1, collect (keptMembers n ms).2)

def keptItems : Nat → List Tree → Bool × List Json
  | _, [] => (false, [])
  | n, x :: xs =>
    let first := kept n x
    if first.1 then (true, [first.2]) else
      let others := keptItems n xs
      (others.1, first.2 :: others.2)

def keptMembers : Nat → List (Bytes × Tree) → Bool × List (Bytes × Json)
  | _, [] => (false, [])
  | n, (k, x) :: ms =>
    let first := kept n x
    if first.1 then (true, [(k, first.2)]) else
      let others := keptMembers n ms
      (others.1, (k, first.2) :: others.2)

end

end Value

/-- The tree nests at most `n` deep, and no numeral makes a reader stop. -/
inductive Readable (number : Numerals) : Nat → Tree → Prop
  | null {n : Nat} : Readable number n .null
  | bool {n : Nat} (b : Bool) : Readable number n (.bool b)
  | num {n : Nat} {numeral : Bytes} : (number numeral).1 = false → Readable number n (.num numeral)
  | str {n : Nat} (s : Bytes) : Readable number n (.str s)
  | arr {n : Nat} {xs : List Tree} : (∀ x ∈ xs, Readable number n x) →
      Readable number (n + 1) (.arr xs)
  | obj {n : Nat} {ms : List (Bytes × Tree)} : (∀ m ∈ ms, Readable number n m.2) →
      Readable number (n + 1) (.obj ms)

section Kept

variable {number : Numerals} {n : Nat}

theorem keptItems_whole {xs : List Tree}
    (each : ∀ x ∈ xs, kept number n x = (false, x.value number)) :
    keptItems number n xs = (false, valueItems number xs) := by
  induction xs with
  | nil => rfl
  | cons x xs ih =>
    have others := ih fun y member => each y (List.mem_cons_of_mem _ member)
    simp [keptItems, valueItems, each x List.mem_cons_self, others]

theorem keptMembers_whole {ms : List (Bytes × Tree)}
    (each : ∀ m ∈ ms, kept number n m.2 = (false, m.2.value number)) :
    keptMembers number n ms = (false, valueMembers number ms) := by
  induction ms with
  | nil => rfl
  | cons m ms ih =>
    have others := ih fun m' member => each m' (List.mem_cons_of_mem _ member)
    have first := each m List.mem_cons_self
    obtain ⟨k, x⟩ := m
    simp [keptMembers, valueMembers, first, others]

/-- What a reader need not stop at is kept as a whole. -/
theorem Readable.kept_eq {t : Tree} (readable : t.Readable number n) :
    t.kept number n = (false, t.value number) := by
  induction readable with
  | null | bool b | str s => rfl
  | num whole => rw [kept, whole, value]
  | arr _ ih => rw [kept, keptItems_whole ih, value]
  | obj _ ih => rw [kept, keptMembers_whole ih, value]

end Kept

end Tree

section Spelled

theorem isNumeric_of_isDigit {b : UInt8} (digit : isDigit b = true) : isNumeric b = true := by
  simp [isNumeric, digit]

theorem isDigit_not_blank {b : UInt8} (digit : isDigit b = true) : isBlank b = false := by
  simp only [isDigit, Bool.and_eq_true, decide_eq_true_eq] at digit
  simp only [isBlank, Bool.or_eq_false_iff, decide_eq_false_iff_not]
  refine ⟨⟨⟨?_, ?_⟩, ?_⟩, ?_⟩ <;> rintro rfl <;> exact absurd digit.1 (by decide)

theorem Numeral.numeric {s : Bytes} (numeral : Numeral s) : ∀ b ∈ s, isNumeric b = true := by
  obtain ⟨sign, int, fraction, exponent, rfl, signed, integer, fractional, exponential⟩ := numeral
  have digits : ∀ {ds : Bytes}, Digits ds → ∀ b ∈ ds, isNumeric b = true :=
    fun all b member => isNumeric_of_isDigit (all.2 b member)
  intro b member
  simp only [List.mem_append] at member
  rcases member with member | member | member | member
  · rcases signed with rfl | rfl
    · cases member
    · rw [List.mem_singleton.mp member]
      decide
  · rcases integer with rfl | ⟨all, -⟩
    · rw [List.mem_singleton.mp member]
      decide
    · exact digits all b member
  · rcases fractional with rfl | ⟨ds, rfl, all⟩
    · cases member
    · rcases List.mem_cons.mp member with rfl | member
      · decide
      · exact digits all b member
  · rcases exponential with rfl | ⟨e, sign', ds, rfl, letter, signed', all⟩
    · cases member
    · rcases List.mem_cons.mp member with rfl | member
      · rcases letter with rfl | rfl <;> decide
      · rcases List.mem_append.mp member with member | member
        · rcases signed' with rfl | rfl | rfl
          · cases member
          · rw [List.mem_singleton.mp member]
            decide
          · rw [List.mem_singleton.mp member]
            decide
        · exact digits all b member

/-- A numeral starts with a sign or a digit. -/
theorem Numeral.head {s : Bytes} (numeral : Numeral s) :
    ∃ b rest, s = b :: rest ∧ (b = 45 ∨ isDigit b = true) := by
  obtain ⟨sign, int, fraction, exponent, rfl, signed, integer, -, -⟩ := numeral
  rcases signed with rfl | rfl
  · rcases integer with rfl | ⟨⟨some, all⟩, -⟩
    · exact ⟨48, _, rfl, .inr rfl⟩
    · obtain ⟨b, int, rfl⟩ := List.exists_cons_of_ne_nil some
      exact ⟨b, _, rfl, .inr (all b List.mem_cons_self)⟩
  · exact ⟨45, _, rfl, .inl rfl⟩

theorem bytes_null : bytes "null" = [110, 117, 108, 108] := by decide

theorem bytes_true : bytes "true" = [116, 114, 117, 101] := by decide

theorem bytes_false : bytes "false" = [102, 97, 108, 115, 101] := by decide

/-- A text starts with the first byte of a tree, which is no blank and closes no array. -/
theorem Spelled.head {t : Tree} {s : Bytes} (spelled : Spelled t s) :
    ∃ b rest, s = b :: rest ∧ isBlank b = false ∧ b ≠ 93 := by
  cases t with
  | null =>
    obtain rfl : s = bytes "null" := spelled
    exact ⟨110, _, bytes_null, by decide⟩
  | bool b =>
    obtain rfl : s = bytes (if b then "true" else "false") := spelled
    cases b with
    | true => exact ⟨116, _, bytes_true, by decide⟩
    | false => exact ⟨102, _, bytes_false, by decide⟩
  | num numeral =>
    obtain ⟨rfl, numeral⟩ := spelled
    obtain ⟨b, rest, rfl, start⟩ := numeral.head
    refine ⟨b, rest, rfl, ?_⟩
    rcases start with rfl | digit
    · decide
    · refine ⟨isDigit_not_blank digit, ?_⟩
      rintro rfl
      cases digit
  | str t =>
    obtain ⟨body, rfl, -⟩ := spelled
    exact ⟨34, _, rfl, by decide⟩
  | arr xs =>
    obtain ⟨body, rfl, -⟩ := spelled
    exact ⟨91, _, rfl, by decide⟩
  | obj ms =>
    obtain ⟨body, rfl, -⟩ := spelled
    exact ⟨123, _, rfl, by decide⟩

end Spelled

end Json

end Library
