import Mathlib.Data.Vector.Basic
import Mathlib.Tactic.Common

/-!
# EAX authenticated encryption

The EAX composition over any domain-separated MAC and any keystream: decryption
inverts encryption, and it accepts exactly the tag that the MAC determines.
-/

namespace Library

/-- Exclusive-or: every element cancels itself. -/
class LawfulXor (α : Type*) [XorOp α] : Prop where
  assoc (a b c : α) : a ^^^ b ^^^ c = a ^^^ (b ^^^ c)
  comm (a b : α) : a ^^^ b = b ^^^ a
  cancel (a b : α) : a ^^^ b ^^^ b = a

instance : LawfulXor UInt8 := ⟨UInt8.xor_assoc, UInt8.xor_comm, fun a b => by
  rw [UInt8.xor_assoc, UInt8.xor_self, UInt8.xor_zero]⟩

section Vector

variable {α : Type*} [XorOp α] {n : Nat}

instance vectorXor : XorOp (List.Vector α n) := ⟨fun a b => .ofFn fun i => a.get i ^^^ b.get i⟩

@[simp] theorem get_xor (a b : List.Vector α n) (i : Fin n) :
    (a ^^^ b).get i = a.get i ^^^ b.get i :=
  List.Vector.get_ofFn _ i

instance [LawfulXor α] : LawfulXor (List.Vector α n) where
  assoc a b c := List.Vector.ext fun i => by simp only [get_xor, LawfulXor.assoc]
  comm a b := List.Vector.ext fun i => by simp only [get_xor, LawfulXor.comm]
  cancel a b := List.Vector.ext fun i => by simp only [get_xor, LawfulXor.cancel]

end Vector

theorem xor_right_injective {α : Type*} [XorOp α] [LawfulXor α] {a b c : α}
    (h : a ^^^ c = b ^^^ c) :
    a = b := by
  rw [← LawfulXor.cancel a c, h, LawfulXor.cancel]

/-- `mac k t` is the MAC in domain `t`; `stream k iv i` is byte `i` of a keystream. -/
structure Eax (K T β : Type*) where
  mac : K → Nat → List β → T
  stream : K → T → Nat → β

namespace Eax

variable {K T β : Type*} [XorOp T] [XorOp β] (E : Eax K T β) (k : K)

def crypt (iv : T) (data : List β) : List β := data.mapIdx fun i b => b ^^^ E.stream k iv i

def tag (nonce c : List β) : T := E.mac k 0 nonce ^^^ E.mac k 1 [] ^^^ E.mac k 2 c

def encrypt (nonce p : List β) : List β × T :=
  let c := E.crypt k (E.mac k 0 nonce) p
  (c, E.tag k nonce c)

def decrypt [DecidableEq T] (nonce : List β) (tag : T) (c : List β) : Option (List β) :=
  if E.tag k nonce c = tag then some (E.crypt k (E.mac k 0 nonce) c) else none

omit [XorOp T] in
@[simp] theorem crypt_length (iv : T) (data : List β) :
    (E.crypt k iv data).length = data.length := by
  simp [crypt]

omit [XorOp T] in
theorem crypt_crypt [LawfulXor β] (iv : T) (data : List β) :
    E.crypt k iv (E.crypt k iv data) = data := by
  apply List.ext_getElem (by simp)
  intro i _ _
  simp [crypt, LawfulXor.cancel]

variable [DecidableEq T]

theorem decrypt_eq_some_iff {nonce c p : List β} {tag : T} :
    E.decrypt k nonce tag c = some p ↔ E.tag k nonce c = tag ∧
      E.crypt k (E.mac k 0 nonce) c = p := by
  unfold decrypt
  split <;> simp_all

theorem decrypt_isSome_iff {nonce c : List β} {tag : T} :
    (E.decrypt k nonce tag c).isSome ↔ tag = E.tag k nonce c := by
  unfold decrypt
  split <;> simp_all [eq_comm]

theorem decrypt_encrypt [LawfulXor β] (nonce p : List β) :
    E.decrypt k nonce (E.encrypt k nonce p).2 (E.encrypt k nonce p).1 = some p :=
  (E.decrypt_eq_some_iff k).mpr ⟨rfl, E.crypt_crypt k _ p⟩

theorem encrypt_of_decrypt [LawfulXor β] {nonce c p : List β} {tag : T}
    (h : E.decrypt k nonce tag c = some p) : E.encrypt k nonce p = (c, tag) := by
  obtain ⟨rfl, rfl⟩ := (E.decrypt_eq_some_iff k).mp h
  simp only [encrypt, E.crypt_crypt]

/-- Two accepted pairs under one tag: the header's part of the tag cancels. -/
theorem mac_relation [LawfulXor T] {nonce nonce' c c' : List β} {t : T}
    (h : (E.decrypt k nonce t c).isSome) (h' : (E.decrypt k nonce' t c').isSome) :
    E.mac k 0 nonce ^^^ E.mac k 2 c = E.mac k 0 nonce' ^^^ E.mac k 2 c' := by
  have same : E.tag k nonce c = E.tag k nonce' c' :=
    ((E.decrypt_isSome_iff k).mp h).symm.trans ((E.decrypt_isSome_iff k).mp h')
  have swap : ∀ a b d : T, a ^^^ b ^^^ d = a ^^^ d ^^^ b := fun a b d => by
    rw [LawfulXor.assoc, LawfulXor.comm b d, ← LawfulXor.assoc]
  simp only [Eax.tag, swap _ (E.mac k 1 [])] at same
  exact xor_right_injective same

end Eax

end Library
