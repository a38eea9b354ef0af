import Stembot.Library.Refinement
import Stembot.Storage.PutResults

/-!
# The store as a service

To its clients the storage is what each namespace holds, now and after a reset,
and which namespace each object is open on. There are no handles and no calls to
the device: a call takes effect as a whole, in part, or not at all.
-/

namespace Stembot

open Library Program

/-- What a call returns. -/
abbrev Operation.Res : Operation → Type
  | .begin _ _ | .clear | .remove _ | .isKey _ => Bool
  | .close => Unit
  | .put _ _ | .getBytesLength _ => Nat
  | .get g _ _ => g.Carrier
  | .getBytes _ n _ => Nat × Option (List.Vector UInt8 n)

/-- The namespace an object is open on, and whether it may only read. -/
abbrev Access := Option (String × Bool)

/-- What is stored, and what has been committed. -/
structure Contents where
  live : String → Entries
  durable : String → Entries
  init : InitStatus

/-- How much of a call takes effect. -/
inductive Outcome where
  | whole | part | none
  deriving DecidableEq

namespace Contents

/-- Storage that cannot be used as it is gets erased. -/
def prepared (c : Contents) : Contents :=
  if c.init = .noFreePages ∨ c.init = .newVersionFound then
    ⟨fun _ _ => none, fun _ _ => none, .ok⟩
  else c

/-- A change of a namespace and its commit, which makes all earlier changes durable. -/
def rewrite (c : Contents) (name : String) (es : Entries) : Outcome → Contents
  | .whole => ⟨Function.update c.live name es, Function.update c.live name es, c.init⟩
  | .part => ⟨Function.update c.live name es, c.durable, c.init⟩
  | .none => c

end Contents

/-- What a reader makes of an entry. -/
def Getter.value (e : Option NvsValue) : (g : Getter) → g.Carrier → g.Carrier
  | .char, d => Entries.scalar e .i8 d
  | .uChar, d => Entries.scalar e .u8 d
  | .short, d => Entries.scalar e .i16 d
  | .uShort, d => Entries.scalar e .u16 d
  | .int, d | .long, d => Entries.scalar e .i32 d
  | .uInt, d | .uLong, d => Entries.scalar e .u32 d
  | .long64, d => Entries.scalar e .i64 d
  | .uLong64, d => Entries.scalar e .u64 d
  | .float, d => (Entries.bytes e d).2
  | .double, d => (Entries.bytes e d).2
  | .bool, d => Entries.bool e d
  | .string, d => Entries.string e d

/-- The length of a blob. -/
def Entries.size : Option NvsValue → Nat
  | some (.blob b) => b.length
  | _ => 0

namespace Operation

/-- A call on an object that is open. -/
def applyOpen (o : Outcome) (name : String) (readOnly : Bool) (c : Contents) :
    (op : Operation) → op.Res × Access × Contents
  | .begin _ _ => (false, some (name, readOnly), c)
  | .close => ((), none, c)
  | .clear =>
    if readOnly then (false, some (name, readOnly), c)
    else (o = .whole, some (name, readOnly), c.rewrite name (fun _ => none) o)
  | .remove key =>
    if readOnly || (c.live name key).isNone then (false, some (name, readOnly), c)
    else (o = .whole, some (name, readOnly),
      c.rewrite name (Function.update (c.live name) key none) o)
  | .isKey key => (o = .whole ∧ (c.live name key).isSome, some (name, readOnly), c)
  | .put p key =>
    match readOnly, p.stored with
    | false, some v => (if o = .none then 0 else p.count, some (name, readOnly),
        c.rewrite name (Function.update (c.live name) key (some v)) o)
    | _, _ => (0, some (name, readOnly), c)
  | .get g key d =>
    (if o = .whole then g.value (c.live name key) d else d, some (name, readOnly), c)
  | .getBytesLength key =>
    (if o = .whole then Entries.size (c.live name key) else 0, some (name, readOnly), c)
  | .getBytes _ _ none => ((0, none), some (name, readOnly), c)
  | .getBytes key _ (some buf) =>
    let (read, buf) := if o = .whole then Entries.bytes (c.live name key) buf else (0, buf)
    ((read, some buf), some (name, readOnly), c)

/-- A call on an object that is not open. -/
def applyClosed (o : Outcome) (c : Contents) : (op : Operation) → op.Res × Access × Contents
  | .begin name readOnly =>
    match o with
    | .whole =>
      if c.prepared.init = .ok then (true, some (name, readOnly), c.prepared)
      else (false, none, c.prepared)
    | .part => (false, none, c.prepared)
    | .none => (false, none, c)
  | .close => ((), none, c)
  | .clear | .remove _ | .isKey _ => (false, none, c)
  | .put _ _ | .getBytesLength _ => (0, none, c)
  | .get _ _ d => (d, none, c)
  | .getBytes _ _ buf => ((0, buf), none, c)

def apply (o : Outcome) (op : Operation) (a : Access) (c : Contents) : op.Res × Access × Contents :=
  match a with
  | some (name, readOnly) => op.applyOpen o name readOnly c
  | none => op.applyClosed o c

/-- A call to the object, with what it returns. -/
def perform (kv : KVStore) : (op : Operation) → NvsProgram (op.Res × KVStore)
  | .begin name readOnly => kv.begin name readOnly
  | .close => do return ((), ← kv.close)
  | .clear => do return (← kv.clear, kv)
  | .remove key => do return (← kv.remove key, kv)
  | .isKey key => do return (← kv.isKey key, kv)
  | .put p key => do return (← p.call kv key, kv)
  | .get g key d => do return (← g.call kv key d, kv)
  | .getBytesLength key => do return (← kv.getBytesLength key, kv)
  | .getBytes _ _ none => return ((0, none), kv)
  | .getBytes key _ (some buf) => do
    let (read, buf) ← kv.getBytes key buf
    return ((read, some buf), kv)

/-- What is left when the result is dropped. -/
theorem call_eq (kv : KVStore) (op : Operation) :
    op.call kv = op.perform kv >>= fun r => pure r.2 := by
  cases op with
  | getBytes key n buf =>
    cases buf with
    | none => rfl
    | some buf => simp [call, perform]
  | _ => simp [call, perform]

end Operation

/-- A client of many objects. -/
abbrev StoreProgram (ι : Type) := Program (ι × Operation) fun call => call.2.Res

/-- What the clients share. -/
structure Storage (ι : Type) where
  access : ι → Access
  contents : Contents

/-- The objects, and their device. -/
structure Stores (ι : Type) where
  objects : ι → KVStore
  device : Nvs

section Handlers

variable {ι : Type} [DecidableEq ι]

def Storage.apply (t : Storage ι) (o : Outcome) (call : ι × Operation) : call.2.Res × Storage ι :=
  let (r, a, c) := call.2.apply o (t.access call.1) t.contents
  (r, ⟨Function.update t.access call.1 a, c⟩)

/-- The service; a sure one never fails. -/
def Storage.service (sure : Prop) : Service (ι × Operation) (fun call => call.2.Res) (Storage ι) :=
  fun call t r t' => ∃ o : Outcome, (sure → o = .whole) ∧ t.apply o call = (r, t')

def Stores.serve : Handler (ι × Operation) (fun call => call.2.Res) (Stores ι) := fun call s =>
  let ((r, kv), w) := (call.2.perform (s.objects call.1)).run Nvs.answer s.device
  (r, ⟨Function.update s.objects call.1 kv, w⟩)

end Handlers

/-- The namespace holds these entries, now and after a reset, and will not be erased. -/
structure Contents.Keeps (name : String) (es : Entries) (c : Contents) : Prop where
  live : c.live name = es
  durable : c.durable name = es
  usable : c.init ≠ .noFreePages ∧ c.init ≠ .newVersionFound

theorem Contents.Keeps.prepared {name : String} {es : Entries} {c : Contents}
    (keeps : c.Keeps name es) :
    c.prepared = c :=
  if_neg (not_or.mpr keeps.usable)

/-- A change of another namespace. -/
theorem Contents.Keeps.rewrite {name other : String} {es es' : Entries} {c : Contents}
    (keeps : c.Keeps name es) (apart : name ≠ other) (o : Outcome) :
    (c.rewrite other es' o).Keeps name es := by
  have kept : Function.update c.live other es' name = es :=
    (Function.update_of_ne apart _ _).trans keeps.live
  cases o with
  | whole => exact ⟨kept, kept, keeps.usable⟩
  | part => exact ⟨kept, keeps.durable, keeps.usable⟩
  | none => exact keeps

/-- A call that does not come to write to the namespace. -/
theorem Operation.apply_keeps {name : String} {es : Entries} {c : Contents} {a : Access}
    (keeps : c.Keeps name es) (elsewhere : a ≠ some (name, false)) {op : Operation}
    (begins : op ≠ .begin name false) (o : Outcome) :
    (op.apply o a c).2.2.Keeps name es ∧ (op.apply o a c).2.1 ≠ some (name, false) := by
  cases a with
  | none =>
    cases op with
    | begin other readOnly =>
      have apart : some (other, readOnly) ≠ some (name, false) := by
        rintro ⟨⟩
        exact begins rfl
      cases o with
      | whole =>
        simp only [apply, applyClosed, keeps.prepared]
        split
        · exact ⟨keeps, apart⟩
        · exact ⟨keeps, nofun⟩
      | part =>
        simp only [apply, applyClosed, keeps.prepared]
        exact ⟨keeps, nofun⟩
      | none => exact ⟨keeps, nofun⟩
    | _ => exact ⟨keeps, nofun⟩
  | some access =>
    obtain ⟨other, readOnly⟩ := access
    have apart : readOnly = false → name ≠ other := by
      rintro rfl rfl
      exact elsewhere rfl
    cases op with
    | close => exact ⟨keeps, nofun⟩
    | clear =>
      cases readOnly with
      | true => exact ⟨keeps, elsewhere⟩
      | false => exact ⟨keeps.rewrite (apart rfl) o, elsewhere⟩
    | remove key =>
      simp only [apply, applyOpen]
      split
      · exact ⟨keeps, elsewhere⟩
      · rename_i writes
        have mode : readOnly = false := by
          cases readOnly with
          | true => exact absurd rfl writes
          | false => rfl
        exact ⟨keeps.rewrite (apart mode) o, elsewhere⟩
    | put p key =>
      simp only [apply, applyOpen]
      split
      · exact ⟨keeps.rewrite (apart rfl) o, elsewhere⟩
      · exact ⟨keeps, elsewhere⟩
    | getBytes key n buf =>
      cases buf with
      | none => exact ⟨keeps, elsewhere⟩
      | some buf => exact ⟨keeps, elsewhere⟩
    | _ => exact ⟨keeps, elsewhere⟩

end Stembot
