import Stembot.Library.CString

/-!
# JSON documents

A document tree with member access as a JSON library offers it: reading an
absent member gives null, writing a member of a null document makes it an
object, and writing into anything else has no effect.
-/

namespace Library

/-- A finite JSON number, `mantissa / 10 ^ places` in lowest terms. -/
@[ext] structure Decimal where
  mantissa : Int
  places : Nat
  lowest : places = 0 ∨ ¬ 10 ∣ mantissa
  deriving DecidableEq

def Decimal.ofInt (n : Int) : Decimal := ⟨n, 0, .inl rfl⟩

/-- `raw` is text that is emitted as it stands. -/
inductive Json where
  | null
  | bool (b : Bool)
  | num (d : Decimal)
  | str (s : Bytes)
  | arr (items : List Json)
  | obj (members : List (Bytes × Json))
  | raw (text : Bytes)

namespace Json

def lookup (k : Bytes) : List (Bytes × Json) → Json
  | [] => .null
  | (k', v) :: ms => if k' = k then v else lookup k ms

def insert (k : Bytes) (v : Json) : List (Bytes × Json) → List (Bytes × Json)
  | [] => [(k, v)]
  | (k', v') :: ms => if k' = k then (k', v) :: ms else (k', v') :: insert k v ms

def get (d : Json) (k : Bytes) : Json :=
  match d with
  | .obj ms => lookup k ms
  | _ => .null

def set (d : Json) (k : Bytes) (v : Json) : Json :=
  match d with
  | .obj ms => .obj (insert k v ms)
  | .null => .obj (insert k v [])
  | d => d

/-- The elements of an array; anything else has none. -/
def items : Json → List Json
  | .arr xs => xs
  | _ => []

/-- The documents whose members can be written. -/
def Writable : Json → Prop
  | .obj _ | .null => True
  | _ => False

theorem lookup_insert (k k' : Bytes) (v : Json) (ms : List (Bytes × Json)) :
    lookup k' (insert k v ms) = if k = k' then v else lookup k' ms := by
  induction ms with
  | nil => simp [insert, lookup]
  | cons m ms ih =>
    obtain ⟨k₀, v₀⟩ := m
    by_cases h₀ : k₀ = k
    · subst h₀
      by_cases h : k₀ = k' <;> simp [insert, lookup, h]
    · by_cases h : k₀ = k'
      · subst h
        simp [insert, lookup, h₀, Ne.symm h₀]
      · simp [insert, lookup, h₀, h, ih]

theorem get_set {d : Json} (h : d.Writable) (k k' : Bytes) (v : Json) :
    (d.set k v).get k' = if k = k' then v else d.get k' := by
  cases d <;> simp_all [Writable, set, get, lookup_insert, lookup]

@[simp] theorem writable_null : Json.null.Writable := trivial

@[simp] theorem writable_set (d : Json) (k : Bytes) (v : Json) :
    (d.set k v).Writable ↔ d.Writable := by
  cases d <;> simp [Writable, set]

@[simp] theorem get_null (k : Bytes) : Json.null.get k = .null := rfl

/-- A document without raw text and without repeated keys, nested at most `n` deep. -/
inductive Within : Nat → Json → Prop
  | null {n} : Within n .null
  | bool {n} (b : Bool) : Within n (.bool b)
  | num {n} (d : Decimal) : Within n (.num d)
  | str {n} (s : Bytes) : Within n (.str s)
  | arr {n} {xs : List Json} : (∀ x ∈ xs, Within n x) → Within (n + 1) (.arr xs)
  | obj {n} {ms : List (Bytes × Json)} : (ms.map Prod.fst).Nodup → (∀ m ∈ ms, Within n m.2) →
      Within (n + 1) (.obj ms)

theorem Within.mono {n : Nat} {d : Json} (h : d.Within n) : ∀ {m : Nat}, n ≤ m → d.Within m := by
  induction h with
  | null => exact fun _ => .null
  | bool b => exact fun _ => .bool b
  | num d => exact fun _ => .num d
  | str s => exact fun _ => .str s
  | arr _ ih =>
    intro m hm
    obtain ⟨m, rfl⟩ : ∃ k, m = k + 1 := ⟨m - 1, by omega⟩
    exact .arr fun x hx => ih x hx (by omega)
  | obj keys _ ih =>
    intro m hm
    obtain ⟨m, rfl⟩ : ∃ k, m = k + 1 := ⟨m - 1, by omega⟩
    exact .obj keys fun x hx => ih x hx (by omega)

theorem mem_insert {k : Bytes} {v : Json} {ms : List (Bytes × Json)} {m : Bytes × Json}
    (h : m ∈ insert k v ms) : m.2 = v ∨ m ∈ ms := by
  induction ms with
  | nil => simp_all [insert]
  | cons m₀ ms ih =>
    by_cases h₀ : m₀.1 = k
    · simp only [insert, h₀, if_true, List.mem_cons] at h
      rcases h with rfl | h
      · exact .inl rfl
      · exact .inr (List.mem_cons_of_mem _ h)
    · simp only [insert, if_neg h₀, List.mem_cons] at h
      rcases h with rfl | h
      · exact .inr List.mem_cons_self
      · exact (ih h).imp_right (List.mem_cons_of_mem _)

theorem keys_insert (k : Bytes) (v : Json) (ms : List (Bytes × Json)) :
    (insert k v ms).map Prod.fst =
      if k ∈ ms.map Prod.fst then ms.map Prod.fst else ms.map Prod.fst ++ [k] := by
  induction ms with
  | nil => simp [insert]
  | cons m ms ih =>
    by_cases h : m.1 = k
    · simp [insert, h]
    · by_cases hk : k ∈ ms.map Prod.fst <;> simp_all [insert, Ne.symm h]

theorem keys_insert_nodup {k : Bytes} {v : Json} {ms : List (Bytes × Json)}
    (h : (ms.map Prod.fst).Nodup) : ((insert k v ms).map Prod.fst).Nodup := by
  rw [keys_insert]
  split
  · exact h
  · rename_i new
    exact List.nodup_append.mpr ⟨h, List.nodup_singleton k, by
      intro a ha b hb
      rw [List.mem_singleton.mp hb]
      rintro rfl
      exact new ha⟩

theorem Within.set {n : Nat} {d v : Json} (hd : d.Within (n + 1)) (k : Bytes) (hv : v.Within n) :
    (d.set k v).Within (n + 1) := by
  cases hd with
  | null =>
    refine .obj (by simp [insert]) fun m hm => ?_
    simp only [insert, List.mem_singleton] at hm
    exact hm ▸ hv
  | bool b => exact .bool b
  | num d => exact .num d
  | str s => exact .str s
  | arr h => exact .arr h
  | obj keys values =>
    refine .obj (keys_insert_nodup keys) fun m hm => ?_
    rcases mem_insert hm with rfl | old
    · exact hv
    · exact values m old

theorem lookup_eq_null_or_mem (k : Bytes) (ms : List (Bytes × Json)) :
    lookup k ms = .null ∨ (k, lookup k ms) ∈ ms := by
  induction ms with
  | nil => exact .inl rfl
  | cons m ms ih =>
    by_cases h : m.1 = k
    · simp [lookup, ← h]
    · simpa [lookup, h] using ih.imp_right .inr

theorem Within.get {n : Nat} {d : Json} (h : d.Within (n + 1)) (k : Bytes) :
    (d.get k).Within n := by
  cases h with
  | @obj _ ms _ values =>
    rcases lookup_eq_null_or_mem k ms with absent | member
    · change (lookup k ms).Within n
      rw [absent]
      exact .null
    · exact values _ member
  | _ => exact .null

theorem Within.items {n : Nat} {d : Json} (h : d.Within (n + 1)) : ∀ x ∈ d.items, x.Within n := by
  cases h with
  | arr values => exact values
  | _ => intro x hx; cases hx

end Json

end Library
