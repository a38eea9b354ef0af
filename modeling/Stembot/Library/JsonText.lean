import Mathlib.Data.Nat.Digits.Lemmas
import Mathlib.Tactic.IntervalCases
import Stembot.Library.JsonGrammar

/-!
# JSON text

A compact writer, and a reader that on an error keeps what it has read so far. The
reader keeps of every text what is to be kept of its tree. The writer spells every
well-formed document, in fixed notation, so reading inverts writing within the
nesting limit.
-/

namespace Library

/-- `m / 10 ^ p` in lowest terms. -/
def Decimal.normalize (m : Int) : Nat → Decimal
  | 0 => .ofInt m
  | p + 1 => if h : 10 ∣ m then normalize (m / 10) p else ⟨m, p + 1, .inr h⟩

theorem Decimal.normalize_eq (d : Decimal) : Decimal.normalize d.mantissa d.places = d := by
  obtain ⟨m, p, lowest⟩ := d
  cases p with
  | zero => rfl
  | succ p =>
    have h : ¬ 10 ∣ m := lowest.resolve_left (Nat.succ_ne_zero p)
    simp [normalize, h]

namespace Json

def writeNat (n : Nat) : Bytes :=
  if n = 0 then [48] else (Nat.digits 10 n).reverse.map fun d => UInt8.ofNat (d + 48)

def natOfDigits (s : Bytes) : Nat := Nat.ofDigits 10 (s.reverse.map fun b => b.toNat - 48)

/-- The digits of the mantissa, with a leading zero in front of the point if there is none. -/
def mantissaDigits (d : Decimal) : Bytes :=
  let s := writeNat d.mantissa.natAbs
  List.replicate (d.places + 1 - s.length) 48 ++ s

/-- The digits in front of the point. -/
def integerDigits (d : Decimal) : Bytes :=
  (mantissaDigits d).take ((mantissaDigits d).length - d.places)

def fractionDigits (d : Decimal) : Bytes :=
  (mantissaDigits d).drop ((mantissaDigits d).length - d.places)

def writeUnsigned (d : Decimal) : Bytes :=
  integerDigits d ++ (if d.places = 0 then [] else 46 :: fractionDigits d)

def writeDecimal (d : Decimal) : Bytes :=
  if d.mantissa < 0 then 45 :: writeUnsigned d else writeUnsigned d

def readNat (s : Bytes) : Bytes × Bytes := (s.takeWhile isDigit, s.dropWhile isDigit)

def readFraction (s : Bytes) : Bytes × Bytes :=
  if s.head? = some 46 then readNat s.tail else ([], s)

/-- Mantissa, places and what follows. -/
def readUnsigned (s : Bytes) : Option (Nat × Nat × Bytes) :=
  let (int, s) := readNat s
  let (frac, s) := readFraction s
  if int = [] then none else some (natOfDigits (int ++ frac), frac.length, s)

def readDecimal (s : Bytes) : Option (Decimal × Bytes) :=
  if s.head? = some 45 then
    (readUnsigned s.tail).map fun (m, p, rest) => (Decimal.normalize (-m) p, rest)
  else (readUnsigned s).map fun (m, p, rest) => (Decimal.normalize m p, rest)

/-- The letter that stands for a byte behind a backslash. -/
def escape (b : UInt8) : Option UInt8 :=
  if b = 34 ∨ b = 92 then some b
  else if b = 8 then some 98
  else if b = 12 then some 102
  else if b = 10 then some 110
  else if b = 13 then some 114
  else if b = 9 then some 116
  else none

/-- Zero is written as a code point, other bytes without an escape as they are. -/
def escapeByte (b : UInt8) : Bytes :=
  match escape b with
  | some e => [92, e]
  | none => if b = 0 then [92, 117, 48, 48, 48, 48] else [b]

def writeString (s : Bytes) : Bytes := 34 :: (s.flatMap escapeByte ++ [34])

/-- Read up to the closing quote; `high` is the high surrogate that was read last. -/
def readString (high : Nat) : Bytes → Option (Bytes × Bytes)
  | [] => none
  | 92 :: 117 :: a :: b :: c :: d :: s => do
    let u ← codeUnit a b c d
    if HighSurrogate u then readString u s
    else
      let (t, rest) ← readString high s
      return (utf8 (if LowSurrogate u then codePoint high u else u) ++ t, rest)
  | 92 :: e :: s => do
    let b ← unescape e
    let (t, rest) ← readString high s
    return (b :: t, rest)
  | b :: s =>
    if b = 34 then some ([], s)
    else (readString high s).map fun (t, rest) => (b :: t, rest)

mutual

def write : Json → Bytes
  | .null => bytes "null"
  | .bool b => if b then bytes "true" else bytes "false"
  | .num d => writeDecimal d
  | .str s => writeString s
  | .arr xs => 91 :: (writeItems xs ++ [93])
  | .obj ms => 123 :: (writeMembers ms ++ [125])
  | .raw text => text

def writeItems : List Json → Bytes
  | [] => []
  | [x] => write x
  | x :: xs => write x ++ 44 :: writeItems xs

def writeMembers : List (Bytes × Json) → Bytes
  | [] => []
  | [(k, v)] => writeString k ++ 58 :: write v
  | (k, v) :: ms => writeString k ++ 58 :: (write v ++ 44 :: writeMembers ms)

end

/-- What a reader has made of its input when it stops. -/
structure Reading (α : Type) where
  error : Bool
  value : α
  rest : Bytes

def skip (s : Bytes) : Bytes := s.dropWhile isBlank

/-- A numeral with an exponent is not read to its end. -/
def decimals : Numerals := fun numeral =>
  match readDecimal numeral with
  | some (d, rest) => (rest ≠ [], d)
  | none => (true, .ofInt 0)

def readNumeral (s : Bytes) : Reading Json :=
  let numeral := s.takeWhile isNumeric
  if numeral = [] then ⟨true, .null, s⟩
  else ⟨(decimals numeral).1, .num (decimals numeral).2, s.dropWhile isNumeric⟩

def readLiteral (text : String) (d : Json) (s : Bytes) : Reading Json :=
  if bytes text <+: s then ⟨false, d, s.drop (bytes text).length⟩ else ⟨true, .null, s⟩

mutual

/-- The first argument bounds the recursion, the second the nesting. -/
def readValue : Nat → Nat → Bytes → Reading Json
  | 0, _, s => ⟨true, .null, s⟩
  | _ + 1, _, [] => ⟨true, .null, []⟩
  | f + 1, n, b :: s =>
    if b = 34 then
      match readString 0xD800 s with
      | some (t, rest) => ⟨false, .str t, rest⟩
      | none => ⟨true, .null, []⟩
    else if b = 91 then
      if n = 0 then ⟨true, .arr [], s⟩
      else if (skip s).head? = some 93 then ⟨false, .arr [], (skip s).tail⟩
      else
        let r := readItems f (n - 1) s
        ⟨r.error, .arr r.value, r.rest⟩
    else if b = 123 then
      if n = 0 then ⟨true, .obj [], s⟩
      else if (skip s).head? = some 125 then ⟨false, .obj [], (skip s).tail⟩
      else
        let r := readMembers f (n - 1) s
        ⟨r.error, collect r.value, r.rest⟩
    else if b = 110 then readLiteral "null" .null (b :: s)
    else if b = 116 then readLiteral "true" (.bool true) (b :: s)
    else if b = 102 then readLiteral "false" (.bool false) (b :: s)
    else readNumeral (b :: s)

def readItems : Nat → Nat → Bytes → Reading (List Json)
  | 0, _, s => ⟨true, [], s⟩
  | f + 1, n, s =>
    let r := readValue f n (skip s)
    if r.error then ⟨true, [r.value], r.rest⟩ else
      let s := skip r.rest
      if s.head? = some 44 then
        let rs := readItems f n s.tail
        ⟨rs.error, r.value :: rs.value, rs.rest⟩
      else ⟨s.head? ≠ some 93, [r.value], s.tail⟩

def readMembers : Nat → Nat → Bytes → Reading (List (Bytes × Json))
  | 0, _, s => ⟨true, [], s⟩
  | f + 1, n, s =>
    let s := skip s
    if s.head? ≠ some 34 then ⟨true, [], s⟩ else
      match readString 0xD800 s.tail with
      | none => ⟨true, [], []⟩
      | some (k, s) =>
        let s := skip s
        if s.head? ≠ some 58 then ⟨true, [], s⟩ else
          let r := readValue f n (skip s.tail)
          if r.error then ⟨true, [(k, r.value)], r.rest⟩ else
            let s := skip r.rest
            if s.head? = some 44 then
              let rs := readMembers f n s.tail
              ⟨rs.error, (k, r.value) :: rs.value, rs.rest⟩
            else ⟨s.head? ≠ some 125, [(k, r.value)], s.tail⟩

end

def readText (limit : Nat) (s : Bytes) : Reading Json := readValue (s.length + 1) limit (skip s)

/-- The reader stops with what it has to keep, and if it need not stop, it ends behind the text. -/
structure Reading.Keeps {α : Type} (r : Reading α) (kept : Bool × α) (rest : Bytes) : Prop where
  error : r.error = kept.1
  value : r.value = kept.2
  rest : kept.1 = false → r.rest = rest

/-- A value ends where the text does not go on with a numeral. -/
def Stops (rest : Bytes) : Prop := ∀ b ∈ rest.head?, isNumeric b = false

/-- Of a text that spells the tree, the reader keeps what is to be kept of the tree. -/
def Reads (t : Tree) : Prop :=
  ∀ n s, Spelled t s → ∀ f rest, s.length < f → Stops rest →
    (readValue f n (s ++ rest)).Keeps (t.kept decimals n) rest

theorem skip_blank {s rest : Bytes} (blank : Blank s) : skip (s ++ rest) = skip rest :=
  List.dropWhile_append_of_pos blank

theorem skip_of_head {b : UInt8} (s : Bytes) (head : isBlank b = false) :
    skip (b :: s) = b :: s := by
  simp [skip, head]

theorem isNumeric_not_blank {b : UInt8} (blank : isBlank b = true) : isNumeric b = false := by
  simp only [isBlank, Bool.or_eq_true, decide_eq_true_eq] at blank
  rcases blank with ((rfl | rfl) | rfl) | rfl <;> decide

theorem stops_blank {s rest : Bytes} (blank : Blank s) (stops : Stops rest) :
    Stops (s ++ rest) := by
  cases s with
  | nil => exact stops
  | cons b s =>
    intro c same
    obtain rfl : b = c := by simpa using same
    exact isNumeric_not_blank (blank b List.mem_cons_self)

theorem readString_escaped {t s : Bytes} (escaped : Escaped t s) (high : Nat) (rest : Bytes) :
    readString high (s ++ 34 :: rest) = some (t, rest) := by
  induction escaped generalizing high with
  | nil => simp [readString]
  | plain _ notQuote notBackslash _ ih => simp [readString, notQuote, notBackslash, ih]
  | @escape e b t s letter _ ih =>
    have notUnicode : e ≠ 117 := by
      rintro rfl
      cases letter
    simp [readString, notUnicode, letter, ih]
  | unit code notHigh notLow _ ih => simp [readString, code, notHigh, notLow, ih]
  | @pair a b c d a' b' c' d' high' low t s first isHigh second isLow _ ih =>
    have notHigh : ¬HighSurrogate low := fun h => absurd isLow.1 (Nat.not_le.mpr h.2)
    simp [readString, first, isHigh, second, notHigh, isLow, ih]

theorem readString_quoted {t s : Bytes} (quoted : Quoted t s) :
    ∃ body, s = 34 :: body ∧ ∀ rest, readString 0xD800 (body ++ rest) = some (t, rest) := by
  obtain ⟨body, rfl, escaped⟩ := quoted
  exact ⟨body ++ [34], rfl, fun rest => by simpa using readString_escaped escaped _ rest⟩

theorem readNumeral_spelled {s rest : Bytes} (numeral : Numeral s) (stops : Stops rest) :
    readNumeral (s ++ rest) = ⟨(decimals s).1, .num (decimals s).2, rest⟩ := by
  obtain ⟨b, s', rfl, -⟩ := numeral.head
  have after : rest.takeWhile isNumeric = [] ∧ rest.dropWhile isNumeric = rest := by
    cases rest with
    | nil => exact ⟨rfl, rfl⟩
    | cons c rest => simp [stops c (by simp)]
  have all := numeral.numeric
  simp only [readNumeral, List.takeWhile_append_of_pos all, List.dropWhile_append_of_pos all, after,
    List.append_nil]
  exact if_neg (List.cons_ne_nil _ _)

/-- A value in blanks, in front of a byte that ends it. -/
theorem Reads.padded {x : Tree} (reads : Reads x) {s : Bytes}
    (padded : Padded (fun v => Spelled x v) s) {n f : Nat} (fuel : s.length < f) {b : UInt8}
    (ends : isNumeric b = false) (head : isBlank b = false) (rest : Bytes) :
    (readValue f n (skip (s ++ b :: rest))).error = (x.kept decimals n).1 ∧
    (readValue f n (skip (s ++ b :: rest))).value = (x.kept decimals n).2 ∧
    ((x.kept decimals n).1 = false →
      skip (readValue f n (skip (s ++ b :: rest))).rest = b :: rest) := by
  obtain ⟨before, v, behind, rfl, blank, blank', spelled⟩ := padded
  obtain ⟨c, v', rfl, start, -⟩ := spelled.head
  simp only [List.length_append] at fuel
  have stops : Stops (behind ++ b :: rest) :=
    stops_blank blank' fun c same => by
      obtain rfl : b = c := by simpa using same
      exact ends
  have text : skip (before ++ (c :: v' ++ behind) ++ b :: rest) = c :: v' ++
      (behind ++ b :: rest) := by
    simp only [List.append_assoc, skip_blank blank, List.cons_append, skip_of_head _ start]
  obtain ⟨error, value, ended⟩ := reads n _ spelled f (behind ++ b :: rest) (by omega) stops
  rw [text]
  refine ⟨error, value, fun whole => ?_⟩
  rw [ended whole, skip_blank blank', skip_of_head _ head]

theorem readItems_spelled {xs : List Tree} (each : ∀ x ∈ xs, Reads x) (some : xs ≠ []) {n : Nat}
    {s : Bytes} (spelled : ItemsSpelled xs s) {f : Nat} (fuel : s.length + 1 < f) (rest : Bytes) :
    (readItems f n (s ++ 93 :: rest)).Keeps (Tree.keptItems decimals n xs) rest := by
  induction xs generalizing s f with
  | nil => exact absurd rfl some
  | cons x xs ih =>
    obtain ⟨f, rfl⟩ : ∃ k, f = k + 1 := ⟨f - 1, by omega⟩
    have reads := each x List.mem_cons_self
    rcases spelled with ⟨rfl, last⟩ | ⟨more, item, others, rfl, first, spelled⟩
    · obtain ⟨error, value, ended⟩ :=
        reads.padded (n := n) (f := f) last (by omega) (b := 93) (by decide) (by decide) rest
      cases whole : (x.kept decimals n).1 with
      | true => constructor <;> simp [readItems, Tree.keptItems, error, value, whole]
      | false => constructor <;> simp [readItems, Tree.keptItems, error, value, whole, ended whole]
    · simp only [List.length_append, List.length_cons] at fuel
      obtain ⟨error, value, ended⟩ := reads.padded (n := n) (f := f) first (by omega) (b := 44)
        (by decide) (by decide) (others ++ 93 :: rest)
      have tail := ih (fun y member => each y (List.mem_cons_of_mem _ member)) more spelled
        (f := f) (by omega)
      cases whole : (x.kept decimals n).1 with
      | true => constructor <;> simp [readItems, Tree.keptItems, error, value, whole]
      | false =>
        constructor <;>
          simp [readItems, Tree.keptItems, error, value, whole, ended whole, tail.error, tail.value]
        exact tail.rest

theorem readMembers_spelled {ms : List (Bytes × Tree)} (each : ∀ m ∈ ms, Reads m.2)
    (some : ms ≠ []) {n : Nat} {s : Bytes} (spelled : MembersSpelled ms s) {f : Nat}
    (fuel : s.length + 1 < f) (rest : Bytes) :
    (readMembers f n (s ++ 125 :: rest)).Keeps (Tree.keptMembers decimals n ms) rest := by
  induction ms generalizing s f with
  | nil => exact absurd rfl some
  | cons m ms ih =>
    obtain ⟨f, rfl⟩ : ∃ k, f = k + 1 := ⟨f - 1, by omega⟩
    have reads := each m List.mem_cons_self
    obtain ⟨k, x⟩ := m
    obtain ⟨key, others, rfl, ⟨before, name, behind, rfl, blank, blank', quoted⟩, values⟩ := spelled
    obtain ⟨body, rfl, read⟩ := readString_quoted quoted
    simp only [List.length_append, List.length_cons] at fuel
    -- The key is read first, up to the colon.
    have start : ∀ tail, skip (before ++ 34 :: tail) = 34 :: tail := by
      intro tail
      rw [skip_blank blank, skip_of_head _ (show isBlank 34 = false from rfl)]
    have colon : ∀ tail, skip (behind ++ 58 :: tail) = 58 :: tail := by
      intro tail
      rw [skip_blank blank', skip_of_head _ (show isBlank 58 = false from rfl)]
    rcases values with ⟨rfl, last⟩ | ⟨more, value, others', rfl, first, spelled⟩
    · obtain ⟨error, value, ended⟩ := reads.padded (n := n) (f := f) last (by omega) (b := 125)
        (by decide) (by decide) rest
      cases whole : (x.kept decimals n).1 with
      | true =>
        constructor <;> simp [readMembers, Tree.keptMembers, start, read, colon,
          error, value, whole]
      | false =>
        constructor <;>
          simp [readMembers, Tree.keptMembers, start, read, colon, error, value, whole, ended whole]
    · simp only [List.length_append, List.length_cons] at fuel
      obtain ⟨error, value, ended⟩ := reads.padded (n := n) (f := f) first (by omega) (b := 44)
        (by decide) (by decide) (others' ++ 125 :: rest)
      have tail := ih (fun m member => each m (List.mem_cons_of_mem _ member)) more spelled
        (f := f) (by omega)
      cases whole : (x.kept decimals n).1 with
      | true =>
        constructor <;> simp [readMembers, Tree.keptMembers, start, read, colon,
          error, value, whole]
      | false =>
        constructor <;> simp [readMembers, Tree.keptMembers, start, read, colon,
          error, value, whole, ended whole, tail.error, tail.value]
        exact tail.rest

/-- The elements of an array do not look like its end. -/
theorem ItemsSpelled.head {x : Tree} {xs : List Tree} {s : Bytes}
    (spelled : ItemsSpelled (x :: xs) s) (rest : Bytes) : (skip (s ++ rest)).head? ≠ some 93 := by
  have padded : ∀ {item : Bytes}, Padded (fun v => Spelled x v) item →
      ∀ rest, (skip (item ++ rest)).head? ≠ some 93 := by
    rintro _ ⟨before, v, behind, rfl, blank, -, spelled⟩ rest
    obtain ⟨b, v', rfl, start, notClosing⟩ := spelled.head
    simp only [List.append_assoc, skip_blank blank, List.cons_append, skip_of_head _ start]
    simpa using notClosing
  rcases spelled with ⟨-, last⟩ | ⟨-, item, others, rfl, first, -⟩
  · exact padded last rest
  · rw [List.append_assoc]
    exact padded first _

/-- The members of an object do not look like its end. -/
theorem MembersSpelled.head {m : Bytes × Tree} {ms : List (Bytes × Tree)} {s : Bytes}
    (spelled : MembersSpelled (m :: ms) s) (rest : Bytes) :
    (skip (s ++ rest)).head? ≠ some 125 := by
  obtain ⟨k, x⟩ := m
  obtain ⟨key, others, rfl, ⟨before, name, behind, rfl, blank, -, body, rfl, -⟩, -⟩ := spelled
  simp only [List.append_assoc, skip_blank blank, List.cons_append, skip_of_head _
    (show isBlank 34 = false from rfl)]
  simp

theorem reads_num (numeral : Bytes) : Reads (.num numeral) := by
  rintro n s ⟨rfl, spelled⟩ f rest fuel stops
  obtain ⟨f, rfl⟩ : ∃ k, f = k + 1 := ⟨f - 1, by omega⟩
  have read := readNumeral_spelled spelled stops
  obtain ⟨b, s, rfl, start⟩ := spelled.head
  have other : b ≠ 34 ∧ b ≠ 91 ∧ b ≠ 123 ∧ b ≠ 110 ∧ b ≠ 116 ∧ b ≠ 102 := by
    refine ⟨?_, ?_, ?_, ?_, ?_, ?_⟩ <;> rintro rfl <;> rcases start with h | h <;> cases h
  obtain ⟨h₁, h₂, h₃, h₄, h₅, h₆⟩ := other
  rw [List.cons_append] at read ⊢
  rw [readValue, if_neg h₁, if_neg h₂, if_neg h₃, if_neg h₄, if_neg h₅, if_neg h₆, read]
  exact ⟨rfl, rfl, fun _ => rfl⟩

/-- By induction on the tree. -/
theorem reads (t : Tree) : Reads t := by
  induction t using Tree.induction with
  | null =>
    rintro n s rfl f rest fuel _
    obtain ⟨f, rfl⟩ : ∃ k, f = k + 1 := ⟨f - 1, by omega⟩
    constructor <;> simp [bytes_null, readValue, readLiteral, Tree.kept]
  | bool b =>
    rintro n s rfl f rest fuel _
    obtain ⟨f, rfl⟩ : ∃ k, f = k + 1 := ⟨f - 1, by omega⟩
    cases b <;> constructor <;> simp [bytes_true, bytes_false, readValue, readLiteral, Tree.kept]
  | num numeral => exact reads_num numeral
  | str t =>
    intro n s quoted f rest fuel _
    obtain ⟨f, rfl⟩ : ∃ k, f = k + 1 := ⟨f - 1, by omega⟩
    obtain ⟨body, rfl, read⟩ := readString_quoted quoted
    constructor <;> simp [readValue, read, Tree.kept]
  | arr xs ih =>
    rintro n s ⟨body, rfl, spelled⟩ f rest fuel _
    obtain ⟨f, rfl⟩ : ∃ k, f = k + 1 := ⟨f - 1, by omega⟩
    simp only [List.length_cons, List.length_append, List.length_nil] at fuel
    cases n with
    | zero => constructor <;> simp [readValue, Tree.kept]
    | succ n =>
      cases xs with
      | nil =>
        have ends : skip (body ++ 93 :: rest) = 93 :: rest := by
          rw [skip_blank spelled, skip_of_head _ (show isBlank 93 = false from rfl)]
        constructor <;> simp [readValue, Tree.kept, Tree.keptItems, ends]
      | cons x xs =>
        have goesOn := spelled.head (93 :: rest)
        obtain ⟨error, value, ended⟩ :=
          readItems_spelled ih (List.cons_ne_nil x xs) (n := n) spelled (f := f) (by omega) rest
        constructor <;> simp [readValue, Tree.kept, goesOn, error, value]
        exact ended
  | obj ms ih =>
    rintro n s ⟨body, rfl, spelled⟩ f rest fuel _
    obtain ⟨f, rfl⟩ : ∃ k, f = k + 1 := ⟨f - 1, by omega⟩
    simp only [List.length_cons, List.length_append, List.length_nil] at fuel
    cases n with
    | zero => constructor <;> simp [readValue, Tree.kept]
    | succ n =>
      cases ms with
      | nil =>
        have ends : skip (body ++ 125 :: rest) = 125 :: rest := by
          rw [skip_blank spelled, skip_of_head _ (show isBlank 125 = false from rfl)]
        constructor <;> simp [readValue, Tree.kept, Tree.keptMembers, ends, collect]
      | cons m ms =>
        have goesOn := spelled.head (125 :: rest)
        obtain ⟨error, value, ended⟩ :=
          readMembers_spelled ih (List.cons_ne_nil m ms) (n := n) spelled (f := f) (by omega) rest
        constructor <;> simp [readValue, Tree.kept, goesOn, error, value]
        exact ended

/-- Of every JSON text the reader keeps what is to be kept of its tree. -/
theorem readText_spells {s : Bytes} {t : Tree} (spells : Spells s t) (limit : Nat) :
    (readText limit s).error = (t.kept decimals limit).1 ∧
      (readText limit s).value = (t.kept decimals limit).2 := by
  obtain ⟨before, v, behind, rfl, blank, blank', spelled⟩ := spells
  obtain ⟨b, v', rfl, start, -⟩ := spelled.head
  have fuel : (b :: v').length < (before ++ (b :: v' ++ behind)).length + 1 := by
    simp only [List.length_append]
    omega
  have stops : Stops behind := by
    have ends := stops_blank blank' (show Stops [] from nofun)
    rwa [List.append_nil] at ends
  obtain ⟨error, value, -⟩ := reads t limit _ spelled _ behind fuel stops
  rw [readText, skip_blank blank, List.cons_append, skip_of_head _ start]
  exact ⟨error, value⟩

theorem isDigit_ofNat {d : Nat} (h : d < 10) : isDigit (UInt8.ofNat (d + 48)) = true := by
  interval_cases d <;> decide

theorem toNat_digit {d : Nat} (h : d < 10) : (UInt8.ofNat (d + 48)).toNat - 48 = d := by
  interval_cases d <;> decide

theorem writeNat_digits (n : Nat) : ∀ b ∈ writeNat n, isDigit b = true := by
  intro b hb
  unfold writeNat at hb
  split at hb
  · rw [List.mem_singleton.mp hb]
    decide
  · obtain ⟨d, hd, rfl⟩ := List.mem_map.mp hb
    exact isDigit_ofNat (Nat.digits_lt_base (by decide) (List.mem_reverse.mp hd))

theorem natOfDigits_writeNat (n : Nat) : natOfDigits (writeNat n) = n := by
  unfold natOfDigits writeNat
  split
  · rename_i zero
    subst zero
    rfl
  · have values : ((Nat.digits 10 n).map fun d => (UInt8.ofNat (d + 48)).toNat - 48) =
        Nat.digits 10 n := by
      refine (List.map_congr_left fun d hd => ?_).trans (List.map_id _)
      exact toNat_digit (Nat.digits_lt_base (by decide) hd)
    rw [← List.map_reverse, List.reverse_reverse, List.map_map]
    exact (congrArg (Nat.ofDigits 10) values).trans (Nat.ofDigits_digits 10 n)

theorem natOfDigits_zeros (k : Nat) (s : Bytes) :
    natOfDigits (List.replicate k 48 ++ s) = natOfDigits s := by
  have zero : (48 : UInt8).toNat - 48 = 0 := rfl
  simp only [natOfDigits, List.reverse_append, List.reverse_replicate, List.map_append,
    List.map_replicate, zero, Nat.ofDigits_append_replicate_zero]

theorem mantissaDigits_digits (d : Decimal) : ∀ b ∈ mantissaDigits d, isDigit b = true := by
  intro b hb
  rcases List.mem_append.mp hb with zero | digit
  · rw [List.eq_of_mem_replicate zero]
    decide
  · exact writeNat_digits _ b digit

theorem places_lt_length (d : Decimal) : d.places < (mantissaDigits d).length := by
  simp only [mantissaDigits, List.length_append, List.length_replicate]
  omega

/-- Reading digits stops where the text does not go on with one. -/
theorem readNat_append {s rest : Bytes} (digits : ∀ b ∈ s, isDigit b = true)
    (stop : ∀ b ∈ rest.head?, isDigit b = false) : readNat (s ++ rest) = (s, rest) := by
  have after : rest.takeWhile isDigit = [] ∧ rest.dropWhile isDigit = rest := by
    cases rest with
    | nil => exact ⟨rfl, rfl⟩
    | cons b rest => simp [stop b (by simp)]
  rw [readNat, List.takeWhile_append_of_pos digits, List.dropWhile_append_of_pos digits, after.1,
    after.2, List.append_nil]

theorem readFraction_write {frac rest : Bytes} {p : Nat} (length : frac.length = p)
    (digits : ∀ b ∈ frac, isDigit b = true) (stop : ∀ b ∈ rest.head?, isDigit b = false ∧ b ≠ 46) :
    readFraction ((if p = 0 then [] else 46 :: frac) ++ rest) = (frac, rest) := by
  by_cases h : p = 0
  · have empty : frac = [] := List.length_eq_zero_iff.mp (length.trans h)
    have noPoint : rest.head? ≠ some 46 := fun point => (stop 46 (by simp [point])).2 rfl
    simp [readFraction, h, empty, noPoint]
  · simpa [readFraction, h] using readNat_append digits fun c hc => (stop c hc).1

theorem integerDigits_append (d : Decimal) :
    integerDigits d ++ fractionDigits d = mantissaDigits d :=
  List.take_append_drop _ _

theorem fractionDigits_length (d : Decimal) : (fractionDigits d).length = d.places := by
  have positive := places_lt_length d
  rw [fractionDigits, List.length_drop]
  omega

theorem integerDigits_ne_nil (d : Decimal) : integerDigits d ≠ [] := by
  intro h
  have positive := places_lt_length d
  rw [← integerDigits_append, h, List.nil_append, fractionDigits_length] at positive
  exact lt_irrefl _ positive

theorem writeUnsigned_head (d : Decimal) : ∃ b s, writeUnsigned d = b :: s ∧ isDigit b = true := by
  obtain ⟨b, s, h⟩ := List.exists_cons_of_ne_nil (integerDigits_ne_nil d)
  have digits := mantissaDigits_digits d
  rw [← integerDigits_append, h] at digits
  exact ⟨b, _, by rw [writeUnsigned, h, List.cons_append], digits b (by simp)⟩

theorem readUnsigned_write (d : Decimal) {rest : Bytes}
    (stop : ∀ b ∈ rest.head?, isDigit b = false ∧ b ≠ 46) :
    readUnsigned (writeUnsigned d ++ rest) = some (d.mantissa.natAbs, d.places, rest) := by
  have value : natOfDigits (mantissaDigits d) = d.mantissa.natAbs := by
    rw [mantissaDigits, natOfDigits_zeros, natOfDigits_writeNat]
  have digits := mantissaDigits_digits d
  rw [← integerDigits_append] at digits value
  have length := fractionDigits_length d
  rw [readUnsigned, writeUnsigned, List.append_assoc,
    readNat_append fun b hb => digits b (List.mem_append_left _ hb)]
  · simp only [readFraction_write length (fun b hb => digits b (List.mem_append_right _ hb)) stop,
      if_neg (integerDigits_ne_nil d), value, length]
  · -- The integer digits end at the point, or at the rest.
    split
    · exact fun b hb => (stop b (by simpa using hb)).1
    · intro b hb
      obtain rfl : 46 = b := by simpa using hb
      rfl

theorem readDecimal_write (d : Decimal) {rest : Bytes}
    (stop : ∀ b ∈ rest.head?, isDigit b = false ∧ b ≠ 46) :
    readDecimal (writeDecimal d ++ rest) = some (d, rest) := by
  by_cases negative : d.mantissa < 0
  · have sign : -(d.mantissa.natAbs : Int) = d.mantissa := by omega
    simp only [readDecimal, writeDecimal, if_pos negative, List.cons_append,
      List.head?_cons, if_true, List.tail_cons, readUnsigned_write d stop, Option.map_some, sign,
      Decimal.normalize_eq]
  · have sign : (d.mantissa.natAbs : Int) = d.mantissa := by omega
    obtain ⟨b, s, h, digit⟩ := writeUnsigned_head d
    have notMinus : (writeUnsigned d ++ rest).head? ≠ some 45 := by
      rw [h, List.cons_append, List.head?_cons]
      rintro ⟨⟩
      cases digit
    simp only [readDecimal, writeDecimal, if_neg negative, if_neg notMinus,
      readUnsigned_write d stop, Option.map_some, sign, Decimal.normalize_eq]

theorem unescape_escape {b e : UInt8} (h : escape b = some e) : unescape e = some b ∧ e ≠ 117 := by
  unfold escape at h
  split_ifs at h with quote
  case pos =>
    cases h
    rcases quote with rfl | rfl <;> decide
  all_goals
    cases h
    subst b
    decide

theorem escape_none {b : UInt8} (h : escape b = none) : b ≠ 34 ∧ b ≠ 92 := by
  constructor <;> rintro rfl <;> cases h

theorem insert_fresh {k : Bytes} {ms : List (Bytes × Json)} (h : k ∉ ms.map Prod.fst) (v : Json) :
    insert k v ms = ms ++ [(k, v)] := by
  induction ms with
  | nil => rfl
  | cons m ms ih =>
    simp only [List.map_cons, List.mem_cons, not_or] at h
    simp [insert, Ne.symm h.1, ih h.2]

theorem foldl_insert (acc ms : List (Bytes × Json)) (h : ((acc ++ ms).map Prod.fst).Nodup) :
    ms.foldl (fun acc m => insert m.1 m.2 acc) acc = acc ++ ms := by
  induction ms generalizing acc with
  | nil => simp
  | cons m ms ih =>
    have fresh : m.1 ∉ acc.map Prod.fst := by
      rw [List.map_append, List.nodup_append] at h
      exact fun hm => h.2.2 m.1 hm m.1 (by simp) rfl
    rw [List.foldl_cons, insert_fresh fresh, ih _ (by simpa using h)]
    simp

mutual

/-- The tree that is written for a document. -/
def Tree.ofDoc : Json → Tree
  | .null | .raw _ => .null
  | .bool b => .bool b
  | .num d => .num (writeDecimal d)
  | .str s => .str s
  | .arr xs => .arr (ofItems xs)
  | .obj ms => .obj (ofMembers ms)

def Tree.ofItems : List Json → List Tree
  | [] => []
  | x :: xs => ofDoc x :: ofItems xs

def Tree.ofMembers : List (Bytes × Json) → List (Bytes × Tree)
  | [] => []
  | (k, x) :: ms => (k, ofDoc x) :: ofMembers ms

end

theorem Tree.mem_ofItems {xs : List Json} {t : Tree} (member : t ∈ ofItems xs) :
    ∃ x ∈ xs, t = ofDoc x := by
  induction xs with
  | nil => cases member
  | cons x xs ih =>
    rcases List.mem_cons.mp member with rfl | member
    · exact ⟨x, List.mem_cons_self, rfl⟩
    · obtain ⟨y, inside, same⟩ := ih member
      exact ⟨y, List.mem_cons_of_mem _ inside, same⟩

theorem Tree.mem_ofMembers {ms : List (Bytes × Json)} {m : Bytes × Tree}
    (member : m ∈ ofMembers ms) : ∃ m' ∈ ms, m.2 = ofDoc m'.2 := by
  induction ms with
  | nil => cases member
  | cons m' ms ih =>
    obtain ⟨k, x⟩ := m'
    rcases List.mem_cons.mp member with rfl | member
    · exact ⟨(k, x), List.mem_cons_self, rfl⟩
    · obtain ⟨m', inside, same⟩ := ih member
      exact ⟨m', List.mem_cons_of_mem _ inside, same⟩

theorem escaped_write (s : Bytes) : Escaped s (s.flatMap escapeByte) := by
  induction s with
  | nil => exact .nil
  | cons b s ih =>
    rw [List.flatMap_cons, escapeByte]
    cases letter : escape b with
    | some e => exact .escape (unescape_escape letter).1 ih
    | none =>
      obtain ⟨notQuote, notBackslash⟩ := escape_none letter
      by_cases zero : b = 0
      · subst zero
        exact .unit (u := 0) rfl (by decide) (by decide) ih
      · simp only [if_neg zero]
        exact .plain zero notQuote notBackslash ih

theorem quoted_write (s : Bytes) : Quoted s (writeString s) := ⟨_, rfl, escaped_write s⟩

theorem writeNat_head (n : Nat) : writeNat n = [48] ∨ (writeNat n).head? ≠ some 48 := by
  by_cases zero : n = 0
  · exact .inl (if_pos zero)
  · right
    have digits : Nat.digits 10 n ≠ [] := Nat.digits_ne_nil_iff_ne_zero.mpr zero
    have last := Nat.getLast_digit_ne_zero 10 zero
    have small := Nat.digits_lt_base (b := 10) (by decide) (List.getLast_mem digits)
    rw [writeNat, if_neg zero, List.head?_map, List.head?_reverse,
      List.getLast?_eq_some_getLast digits]
    intro same
    have value := toNat_digit small
    rw [Option.map_some, Option.some.injEq] at same
    rw [same] at value
    exact last value.symm

/-- The digits in front of the point have no leading zero. -/
theorem integerDigits_head (d : Decimal) :
    integerDigits d = [48] ∨ (integerDigits d).head? ≠ some 48 := by
  by_cases padded : (writeNat d.mantissa.natAbs).length ≤ d.places
  · left
    obtain ⟨k, zeros⟩ : ∃ k, d.places + 1 - (writeNat d.mantissa.natAbs).length = k + 1 :=
      ⟨d.places - (writeNat d.mantissa.natAbs).length, by omega⟩
    have length : (mantissaDigits d).length - d.places = 1 := by
      simp only [mantissaDigits, List.length_append, List.length_replicate]
      omega
    rw [integerDigits, length, mantissaDigits, zeros, List.replicate_succ, List.cons_append,
      List.take_succ_cons, List.take_zero]
  · have none : d.places + 1 - (writeNat d.mantissa.natAbs).length = 0 := by omega
    have digits : mantissaDigits d = writeNat d.mantissa.natAbs := by
      rw [mantissaDigits, none, List.replicate_zero, List.nil_append]
    obtain ⟨k, positive⟩ : ∃ k, (writeNat d.mantissa.natAbs).length - d.places = k + 1 :=
      ⟨(writeNat d.mantissa.natAbs).length - d.places - 1, by omega⟩
    rw [integerDigits, digits, positive]
    rcases writeNat_head d.mantissa.natAbs with zero | head
    · rw [zero]
      exact .inl (List.take_succ_cons.trans (by rw [List.take_nil]))
    · right
      cases text : writeNat d.mantissa.natAbs with
      | nil => exact nofun
      | cons b s => simpa [text] using head

theorem numeral_write (d : Decimal) : Numeral (writeDecimal d) := by
  have digits := mantissaDigits_digits d
  rw [← integerDigits_append] at digits
  have integer : integerDigits d = [48] ∨ Digits (integerDigits d) ∧
      (integerDigits d).head? ≠ some 48 :=
    (integerDigits_head d).imp_right fun head =>
      ⟨⟨integerDigits_ne_nil d, fun b member => digits b (List.mem_append_left _ member)⟩, head⟩
  have fraction : (if d.places = 0 then [] else 46 :: fractionDigits d) = [] ∨
      ∃ ds, (if d.places = 0 then [] else 46 :: fractionDigits d) = 46 :: ds ∧ Digits ds := by
    by_cases whole : d.places = 0
    · exact .inl (if_pos whole)
    · refine .inr ⟨fractionDigits d, if_neg whole, ?_, ?_⟩
      · intro none
        have length := fractionDigits_length d
        rw [none] at length
        exact whole length.symm
      · exact fun b member => digits b (List.mem_append_right _ member)
  unfold writeDecimal
  split
  · exact ⟨[45], _, _, [], by simp [writeUnsigned], .inr rfl, integer, fraction, .inl rfl⟩
  · exact ⟨[], _, _, [], by simp [writeUnsigned], .inl rfl, integer, fraction, .inl rfl⟩

theorem decimals_write (d : Decimal) : decimals (writeDecimal d) = (false, d) := by
  have read := @readDecimal_write d [] nofun
  rw [List.append_nil] at read
  simp [decimals, read]

theorem itemsSpelled_write {xs : List Json} (each : ∀ x ∈ xs, Spelled (.ofDoc x) (write x)) :
    ItemsSpelled (Tree.ofItems xs) (writeItems xs) := by
  induction xs with
  | nil => exact nofun
  | cons x xs ih =>
    have first := Padded.of_part (P := fun v => Spelled (.ofDoc x) v) (each x List.mem_cons_self)
    have others := ih fun y member => each y (List.mem_cons_of_mem _ member)
    cases xs with
    | nil => exact .inl ⟨rfl, first⟩
    | cons y ys => exact .inr ⟨nofun, _, _, rfl, first, others⟩

theorem membersSpelled_write {ms : List (Bytes × Json)}
    (each : ∀ m ∈ ms, Spelled (.ofDoc m.2) (write m.2)) :
    MembersSpelled (Tree.ofMembers ms) (writeMembers ms) := by
  induction ms with
  | nil => exact nofun
  | cons m ms ih =>
    obtain ⟨k, x⟩ := m
    have first := Padded.of_part (P := fun v => Spelled (.ofDoc x) v) (each _ List.mem_cons_self)
    have others := ih fun m' member => each m' (List.mem_cons_of_mem _ member)
    cases ms with
    | nil => exact ⟨_, _, rfl, .of_part (quoted_write k), .inl ⟨rfl, first⟩⟩
    | cons m' ms =>
      exact ⟨_, _, rfl, .of_part (quoted_write k), .inr ⟨nofun, _, _, rfl, first, others⟩⟩

theorem spelled_write {n : Nat} {d : Json} (within : d.Within n) :
    Spelled (.ofDoc d) (write d) := by
  induction within with
  | null => rfl
  | bool b => cases b <;> rfl
  | num d => exact ⟨rfl, numeral_write d⟩
  | str s => exact quoted_write s
  | arr _ ih => exact ⟨_, by rw [write], itemsSpelled_write ih⟩
  | obj _ _ ih => exact ⟨_, by rw [write], membersSpelled_write ih⟩

/-- The text that is written spells the document's tree. -/
theorem spells_write {n : Nat} {d : Json} (within : d.Within n) : Spells (write d) (.ofDoc d) :=
  .of_part (spelled_write within)

theorem valueItems_ofItems {xs : List Json} (each : ∀ x ∈ xs, (Tree.ofDoc x).value decimals = x) :
    Tree.valueItems decimals (Tree.ofItems xs) = xs := by
  induction xs with
  | nil => rfl
  | cons x xs ih =>
    rw [Tree.ofItems, Tree.valueItems, each x List.mem_cons_self,
      ih fun y member => each y (List.mem_cons_of_mem _ member)]

theorem valueMembers_ofMembers {ms : List (Bytes × Json)}
    (each : ∀ m ∈ ms, (Tree.ofDoc m.2).value decimals = m.2) :
    Tree.valueMembers decimals (Tree.ofMembers ms) = ms := by
  induction ms with
  | nil => rfl
  | cons m ms ih =>
    have first := each m List.mem_cons_self
    obtain ⟨k, x⟩ := m
    rw [Tree.ofMembers, Tree.valueMembers, first,
      ih fun m' member => each m' (List.mem_cons_of_mem _ member)]

theorem value_ofDoc {n : Nat} {d : Json} (within : d.Within n) :
    (Tree.ofDoc d).value decimals = d := by
  induction within with
  | null | bool b | str s => rfl
  | num d => rw [Tree.ofDoc, Tree.value, decimals_write]
  | arr _ ih => rw [Tree.ofDoc, Tree.value, valueItems_ofItems ih]
  | obj keys _ ih =>
    rw [Tree.ofDoc, Tree.value, valueMembers_ofMembers ih]
    exact congrArg Json.obj (foldl_insert [] _ keys)

theorem readable_ofDoc {n : Nat} {d : Json} (within : d.Within n) :
    (Tree.ofDoc d).Readable decimals n := by
  induction within with
  | null => exact .null
  | bool b => exact .bool b
  | num d => exact .num (by rw [decimals_write])
  | str s => exact .str s
  | arr _ ih =>
    refine .arr fun t member => ?_
    obtain ⟨x, inside, rfl⟩ := Tree.mem_ofItems member
    exact ih x inside
  | obj _ _ ih =>
    refine .obj fun m member => ?_
    obtain ⟨m', inside, same⟩ := Tree.mem_ofMembers member
    rw [same]
    exact ih m' inside

/-- Reading inverts writing. -/
theorem readText_write {limit : Nat} {d : Json} (within : d.Within limit) :
    (readText limit (write d)).error = false ∧ (readText limit (write d)).value = d := by
  have read := readText_spells (spells_write within) limit
  rwa [(readable_ofDoc within).kept_eq, value_ofDoc within] at read

theorem collect_within {n : Nat} {ms : List (Bytes × Json)} (h : ∀ m ∈ ms, m.2.Within n) :
    (collect ms).Within (n + 1) := by
  have step : ∀ acc : List (Bytes × Json), (acc.map Prod.fst).Nodup → (∀ m ∈ acc, m.2.Within n) →
      (Json.obj (ms.foldl (fun acc m => insert m.1 m.2 acc) acc)).Within (n + 1) := by
    induction ms with
    | nil => exact fun acc keys values => .obj keys values
    | cons m ms ih =>
      intro acc keys values
      refine ih (fun m' hm' => h m' (List.mem_cons_of_mem _ hm')) _ (keys_insert_nodup keys) ?_
      intro m' hm'
      rcases mem_insert hm' with new | old
      · exact new ▸ h m List.mem_cons_self
      · exact values m' old
  exact step [] List.nodup_nil (by simp)

theorem readLiteral_within {n : Nat} {d : Json} (hd : d.Within n) (text : String) (s : Bytes) :
    (readLiteral text d s).value.Within n := by
  unfold readLiteral
  split
  · exact hd
  · exact .null

theorem reading_within (f : Nat) :
    (∀ n s, (readValue f n s).value.Within (n + 1)) ∧
    (∀ n s, ∀ x ∈ (readItems f n s).value, x.Within (n + 1)) ∧
    (∀ n s, ∀ m ∈ (readMembers f n s).value, m.2.Within (n + 1)) := by
  induction f with
  | zero =>
    refine ⟨fun _ _ => ?_, fun _ _ => ?_, fun _ _ => ?_⟩ <;>
    simp [readValue, readItems, readMembers, Within.null]
  | succ f ih =>
    obtain ⟨value, items, members⟩ := ih
    refine ⟨fun n s => ?_, fun n s x hx => ?_, fun n s m hm => ?_⟩
    · cases s with
      | nil => exact .null
      | cons b s =>
        rw [readValue]
        split_ifs with _ _ zero _ _ zero
        · cases readString 0xD800 s with
          | none => exact .null
          | some r => exact .str _
        · exact .arr (by simp)
        · exact .arr (by simp)
        · exact .arr fun x hx => by
            simpa [Nat.sub_add_cancel (Nat.pos_of_ne_zero zero)] using items _ s x hx
        · exact .obj (by simp) (by simp)
        · exact .obj (by simp) (by simp)
        · exact collect_within fun m hm => by
            simpa [Nat.sub_add_cancel (Nat.pos_of_ne_zero zero)] using members _ s m hm
        · exact readLiteral_within .null _ _
        · exact readLiteral_within (.bool true) _ _
        · exact readLiteral_within (.bool false) _ _
        · rw [readNumeral]
          split_ifs
          · exact .null
          · exact .num _
    · rw [readItems] at hx
      have head := value n (skip s)
      dsimp only at hx
      split_ifs at hx
      · rw [List.mem_singleton.mp hx]
        exact head
      · rcases List.mem_cons.mp hx with rfl | hx
        · exact head
        · exact items n _ x hx
      · rw [List.mem_singleton.mp hx]
        exact head
    · rw [readMembers] at hm
      dsimp only at hm
      split_ifs at hm
      · cases hm
      · cases hk : readString 0xD800 (skip s).tail with
        | none =>
          rw [hk] at hm
          cases hm
        | some r =>
          rw [hk] at hm
          have head := value n (skip (skip r.2).tail)
          dsimp only at hm
          split_ifs at hm
          · cases hm
          · rw [List.mem_singleton.mp hm]
            exact head
          · rcases List.mem_cons.mp hm with rfl | hm
            · exact head
            · exact members n _ m hm
          · rw [List.mem_singleton.mp hm]
            exact head

theorem readText_within (limit : Nat) (s : Bytes) : (readText limit s).value.Within (limit + 1) :=
  (reading_within _).1 limit _

/-- Raw text stands for the document it serialises. -/
theorem write_raw (k : Bytes) (d : Json) (ms ms' : List (Bytes × Json)) :
    write (.obj (ms ++ (k, .raw (write d)) :: ms')) = write (.obj (ms ++ (k, d) :: ms')) := by
  have members : writeMembers (ms ++ (k, .raw (write d)) :: ms') =
      writeMembers (ms ++ (k, d) :: ms') := by
    induction ms with
    | nil => cases ms' <;> simp [writeMembers, write]
    | cons m ms ih =>
      cases ms with
      | nil => cases ms' <;> simp_all [writeMembers]
      | cons _ _ => simp_all [writeMembers]
  rw [write, write, members]

end Json

end Library
