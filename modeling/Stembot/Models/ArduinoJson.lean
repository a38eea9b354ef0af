import Stembot.Library.JsonGrammar

/-!
# The JSON library and the optional-field helpers

`ArduinoJson` is the library as the code uses it; `Lawful` collects what the
code relies on. The helpers follow `utils.cpp`.
-/

namespace Stembot

open Library

/-- What `deserializeJson` gives back: an error flag, and the document it has read so far. -/
structure Parsed where
  error : Bool
  doc : Json

structure ArduinoJson where
  serializeJson : Json → Bytes
  deserializeJson : Bytes → Parsed
  /-- `as<int64_t>` -/
  asInt64 : Json → Int64
  /-- `as<double>` -/
  asDouble : Json → Decimal

/-- The library's default nesting limit; the code never passes another. -/
def nestingLimit : Nat := 10

structure ArduinoJson.Lawful (A : ArduinoJson) : Prop where
  parse_serialize : ∀ {d : Json}, d.Within nestingLimit →
    A.deserializeJson (A.serializeJson d) = ⟨false, d⟩
  /-- A document cut off by the nesting limit may hold one empty container beyond it. -/
  doc_within : ∀ s, (A.deserializeJson s).doc.Within (nestingLimit + 1)
  parse_nil : A.deserializeJson [] = ⟨true, .null⟩
  /-- `serialized(text)` emits the text verbatim. -/
  serialize_raw : ∀ k d ms ms', A.serializeJson
    (.obj (ms ++ (k, .raw (A.serializeJson d)) :: ms')) =
    A.serializeJson (.obj (ms ++ (k, d) :: ms'))
  asInt64_num : ∀ n : Int64, A.asInt64 (.num (.ofInt n.toInt)) = n
  asDouble_num : ∀ d, A.asDouble (.num d) = d

/-- The library reads JSON text, up to the nesting limit and numeral by numeral. -/
def ArduinoJson.Reads (A : ArduinoJson) (number : Json.Numerals) : Prop :=
  ∀ (s : Bytes) (t : Json.Tree), Json.Spells s t →
    A.deserializeJson s = ⟨(t.kept number nestingLimit).1, (t.kept number nestingLimit).2⟩

namespace ArduinoJson

variable (A : ArduinoJson)

/-- The document that `deserializeJson` leaves, whatever its error code. -/
def read (s : Bytes) : Json := (A.deserializeJson s).doc

/-- `as<std::string>`: a string as it is, anything else serialised. -/
def asString : Json → Bytes
  | .str s => s
  | d => A.serializeJson d

variable {A}

theorem Lawful.read_serialize (lawful : A.Lawful) {d : Json} (h : d.Within nestingLimit) :
    A.read (A.serializeJson d) = d := by
  simp [read, lawful.parse_serialize h]

theorem Lawful.read_nil (lawful : A.Lawful) : A.read [] = .null := by
  simp [read, lawful.parse_nil]

theorem Reads.read {number : Json.Numerals} (reads : A.Reads number) {s : Bytes} {t : Json.Tree}
    (spells : Json.Spells s t) : A.read s = (t.kept number nestingLimit).2 := by
  rw [ArduinoJson.read, reads s t spells]

end ArduinoJson

def orStr (d : Json) (default : Bytes) : Bytes :=
  match d with
  | .str s => s
  | _ => default

def orBool (d : Json) (default : Bool) : Bool :=
  match d with
  | .bool b => b
  | _ => default

def orDouble (A : ArduinoJson) (d : Json) (default : Decimal) : Decimal :=
  match d with
  | .num n => A.asDouble (.num n)
  | _ => default

/-- `doc["type"] | ""` as a `const char*`: the bytes in front of the first zero. -/
def typeOfDoc (doc : Json) : Bytes := cstr (orStr (doc.get (bytes "type")) [])

/-- A tag is read where it stands, alone or in front of a zero byte. -/
theorem typeOfDoc_eq_iff {m : Json} {tag : Bytes} (noZero : 0 ∉ tag) (notEmpty : tag ≠ []) :
    typeOfDoc m = tag ↔ m.get (bytes "type") = .str tag ∨
      ∃ rest, m.get (bytes "type") = .str (tag ++ 0 :: rest) := by
  unfold typeOfDoc
  cases m.get (bytes "type") with
  | str s => simp [orStr, cstr_eq_iff noZero]
  | _ => simp [orStr, cstr, Ne.symm notEmpty]

def optJson {α : Type} (f : α → Json) : Option α → Json
  | some a => f a
  | none => .null

def setOptStr (doc : Json) (key : String) (v : Option Bytes) : Json :=
  doc.set (bytes key) (optJson .str v)

def setOptI64 (doc : Json) (key : String) (v : Option Int64) : Json :=
  doc.set (bytes key) (optJson (fun n => .num (.ofInt n.toInt)) v)

def setOptF64 (doc : Json) (key : String) (v : Option Decimal) : Json :=
  doc.set (bytes key) (optJson .num v)

def setOptStrArray (doc : Json) (key : String) (v : Option (List Bytes)) : Json :=
  doc.set (bytes key) (optJson (fun ss => .arr (ss.map .str)) v)

section Getters

variable (A : ArduinoJson)

def getOptStr : Json → Option Bytes
  | .null => none
  | d => some (A.asString d)

def getOptI64 : Json → Option Int64
  | .null => none
  | d => some (A.asInt64 d)

def getOptF64 : Json → Option Decimal
  | .null => none
  | d => some (A.asDouble d)

/-- The text of a member that is not null. -/
def textUnlessNull : Json → Option Bytes
  | .null => none
  | d => some (A.serializeJson d)

def getOptStrArray : Json → Option (List Bytes)
  | .null => none
  | d => some (d.items.map A.asString)

variable {A}

@[simp] theorem getOptStr_optJson (v : Option Bytes) : getOptStr A (optJson .str v) = v := by
  cases v <;> rfl

@[simp] theorem textUnlessNull_null : textUnlessNull A .null = none := rfl

theorem textUnlessNull_of_ne {d : Json} (h : d ≠ .null) :
    textUnlessNull A d = some (A.serializeJson d) := by
  cases d with
  | null => exact absurd rfl h
  | _ => rfl

@[simp] theorem getOptStrArray_optJson (v : Option (List Bytes)) :
    getOptStrArray A (optJson (fun ss => .arr (ss.map .str)) v) = v := by
  cases v with
  | none => rfl
  | some ss => simp [getOptStrArray, optJson, Json.items, Function.comp_def, ArduinoJson.asString]

theorem ArduinoJson.Lawful.getOptI64_optJson (lawful : A.Lawful) (v : Option Int64) :
    getOptI64 A (optJson (fun n => .num (.ofInt n.toInt)) v) = v := by
  cases v with
  | none => rfl
  | some n => exact congrArg some (lawful.asInt64_num n)

theorem ArduinoJson.Lawful.getOptF64_optJson (lawful : A.Lawful) (v : Option Decimal) :
    getOptF64 A (optJson .num v) = v := by
  cases v with
  | none => rfl
  | some n => exact congrArg some (lawful.asDouble_num n)

end Getters

theorem within_optJson {α : Type} {n : Nat} {f : α → Json}
    (hf : ∀ a, (f a).Within n) (v : Option α) :
    (optJson f v).Within n := by
  cases v with
  | none => exact .null
  | some a => exact hf a

theorem setOptStr_within {n : Nat} {doc : Json} (h : doc.Within (n + 1)) (key : String)
    (v : Option Bytes) : (setOptStr doc key v).Within (n + 1) :=
  h.set _ (within_optJson .str v)

theorem setOptI64_within {n : Nat} {doc : Json} (h : doc.Within (n + 1)) (key : String)
    (v : Option Int64) : (setOptI64 doc key v).Within (n + 1) :=
  h.set _ (within_optJson (fun _ => .num _) v)

theorem setOptF64_within {n : Nat} {doc : Json} (h : doc.Within (n + 1)) (key : String)
    (v : Option Decimal) : (setOptF64 doc key v).Within (n + 1) :=
  h.set _ (within_optJson .num v)

theorem setOptStrArray_within {n : Nat} {doc : Json} (h : doc.Within (n + 2)) (key : String)
    (v : Option (List Bytes)) : (setOptStrArray doc key v).Within (n + 2) := by
  refine h.set _ (within_optJson (fun ss => .arr ?_) v)
  intro x hx
  obtain ⟨s, -, rfl⟩ := List.mem_map.mp hx
  exact .str s

end Stembot
