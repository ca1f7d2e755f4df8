import Mathlib.Algebra.Group.Int.Defs
import Mathlib.Logic.Function.Basic
import AccessRegistry.Lock

/-!
# AccessRegistry.Proofs.Keys

The key of a lock is the hash of two texts, one after the other. As a number it is the hash itself,
so no key is negative.

The prime is odd, so it has an inverse among the 32-bit words, and every step of the hash can be
undone (`mix_bijective`). An end that two texts share therefore neither makes their hashes equal nor
tells them apart (`fnv1a32_append_right_iff`). One step keeps any two bytes apart, so texts that
differ in one byte have different hashes (`OneByteApart.fnv1a32_ne`), and names that do have
different keys in every namespace (`keyIn_ne`).

* `OneByteApart` — two texts that are equally long and differ at one place.
* `keyIn`        — the key of a name in any namespace.
-/

namespace AccessRegistry
namespace Lock

/-! ## The hash -/

section Hash

variable {p x y s : List UInt8} {a b : UInt8}

/-- The inverse of the prime among the 32-bit words. -/
def primeInverse : UInt32 := 0x359c449b

/-- The hash before a byte. -/
def unmix (hash : UInt32) (byte : UInt8) : UInt32 := (hash * primeInverse) ^^^ byte.toUInt32

theorem prime_mul_inverse : prime * primeInverse = 1 := by decide

theorem unmix_mix (hash : UInt32) (byte : UInt8) : unmix (mix hash byte) byte = hash := by
  rw [unmix, mix, UInt32.mul_assoc, prime_mul_inverse, UInt32.mul_one, UInt32.xor_assoc,
    UInt32.xor_self, UInt32.xor_zero]

theorem mix_unmix (hash : UInt32) (byte : UInt8) : mix (unmix hash byte) byte = hash := by
  rw [unmix, mix, UInt32.xor_assoc, UInt32.xor_self, UInt32.xor_zero, UInt32.mul_assoc,
    UInt32.mul_comm primeInverse, prime_mul_inverse, UInt32.mul_one]

theorem mix_bijective (byte : UInt8) : Function.Bijective fun hash => mix hash byte :=
  Function.bijective_iff_has_inverse.2
    ⟨fun hash => unmix hash byte, fun hash => unmix_mix hash byte, fun hash => mix_unmix hash byte⟩

/-- No two bytes take a hash to the same one. -/
theorem mix_byte_injective (hash : UInt32) : Function.Injective (mix hash) := by
  intro a b h
  have hxor : hash ^^^ a.toUInt32 = hash ^^^ b.toUInt32 := by
    have hmul := congrArg (· * primeInverse) h
    simpa only [mix, UInt32.mul_assoc, prime_mul_inverse, UInt32.mul_one] using hmul
  exact UInt8.toUInt32_inj.1 ((UInt32.xor_right_inj hash).1 hxor)

/-- The hash before a text can be told from the hash after it, however long the text is. -/
theorem foldl_mix_bijective (s : List UInt8) : Function.Bijective fun hash => s.foldl mix hash := by
  induction s with
  | nil => exact Function.bijective_id
  | cons byte s ih => exact ih.comp (mix_bijective byte)

theorem fnv1a32_append (x s : List UInt8) : fnv1a32 (x ++ s) = s.foldl mix (fnv1a32 x) :=
  List.foldl_append

theorem fnv1a32_append_right_iff : fnv1a32 (x ++ s) = fnv1a32 (y ++ s) ↔ fnv1a32 x = fnv1a32 y := by
  rw [fnv1a32_append, fnv1a32_append]
  exact (foldl_mix_bijective s).injective.eq_iff

theorem fnv1a32_append_byte_iff : fnv1a32 (p ++ [a]) = fnv1a32 (p ++ [b]) ↔ a = b := by
  rw [fnv1a32_append, fnv1a32_append]
  exact (mix_byte_injective (fnv1a32 p)).eq_iff

end Hash

/-! ## Texts that differ in one byte -/

section Apart

variable {xs ys : List UInt8}

/-- Equally long, and different at one place. -/
def OneByteApart (xs ys : List UInt8) : Prop :=
  xs.length = ys.length ∧ ∃! i : Nat, xs[i]? ≠ ys[i]?

theorem oneByteApart_of_split (p s : List UInt8) {a b : UInt8} (hne : a ≠ b) :
    OneByteApart (p ++ [a] ++ s) (p ++ [b] ++ s) := by
  refine ⟨by simp, p.length, by simpa using hne, fun j hj => ?_⟩
  by_contra hother
  refine hj ?_
  rcases Nat.lt_or_gt_of_ne hother with hbefore | hafter
  · simp [List.getElem?_append_left hbefore]
  · have hend (c : UInt8) : (p ++ [c] ++ s)[j]? = s[j - (p ++ [c]).length]? := by
      refine List.getElem?_append_right ?_
      rw [List.length_append]
      exact hafter
    rw [hend, hend, List.length_append, List.length_append]
    rfl

/-- What stands before and after the place is the same. -/
theorem OneByteApart.exists_split (h : OneByteApart xs ys) :
    ∃ p a b s, xs = p ++ [a] ++ s ∧ ys = p ++ [b] ++ s ∧ a ≠ b := by
  obtain ⟨hlength, i, hdiffer, honly⟩ := h
  have hsame (j : Nat) (hj : j ≠ i) : xs[j]? = ys[j]? := by
    by_contra h
    exact hj (honly j h)
  have hi : i < xs.length := by
    by_contra hi
    exact hdiffer (by rw [List.getElem?_eq_none (by omega), List.getElem?_eq_none (by omega)])
  have hi' : i < ys.length := hlength ▸ hi
  have hbefore : xs.take i = ys.take i := List.ext_getElem? fun j => by
    rw [List.getElem?_take, List.getElem?_take]
    split
    · exact hsame j (by omega)
    · rfl
  have hafter : xs.drop (i + 1) = ys.drop (i + 1) := List.ext_getElem? fun j => by
    rw [List.getElem?_drop, List.getElem?_drop]
    exact hsame (i + 1 + j) (by omega)
  refine ⟨xs.take i, xs[i], ys[i], xs.drop (i + 1), ?_, ?_, fun h => hdiffer ?_⟩
  · rw [List.take_append_getElem, List.take_append_drop]
  · rw [hbefore, hafter, List.take_append_getElem, List.take_append_drop]
  · rw [List.getElem?_eq_getElem hi, List.getElem?_eq_getElem hi', h]

theorem OneByteApart.fnv1a32_ne (h : OneByteApart xs ys) (before : List UInt8) :
    fnv1a32 (before ++ xs) ≠ fnv1a32 (before ++ ys) := by
  obtain ⟨p, a, b, s, rfl, rfl, hne⟩ := h.exists_split
  intro heq
  have hhash : fnv1a32 (before ++ p ++ [a] ++ s) = fnv1a32 (before ++ p ++ [b] ++ s) := by
    simpa only [List.append_assoc] using heq
  exact hne (fnv1a32_append_byte_iff.1 (fnv1a32_append_right_iff.1 hhash))

end Apart

/-! ## Keys -/

section Keys

variable {space name name' : String}

theorem toListLoop_eq (bytes : ByteArray) (i : Nat) (acc : List UInt8) :
    ByteArray.toList.loop bytes i acc = acc.reverse ++ bytes.data.toList.drop i := by
  fun_induction ByteArray.toList.loop bytes i acc with
  | case1 i acc hi ih =>
    have hlen : i < bytes.data.toList.length := hi
    have hget : bytes.get! i = bytes.data.toList[i] := by
      rw [Array.getElem_toList]
      exact getElem!_pos bytes.data i hi
    rw [ih, List.drop_eq_getElem_cons hlen, hget, List.reverse_cons, List.append_assoc]
    rfl
  | case2 i acc hi =>
    rw [List.drop_eq_nil_of_le (Nat.le_of_not_lt hi), List.append_nil]

theorem toList_eq (bytes : ByteArray) : bytes.toList = bytes.data.toList :=
  toListLoop_eq bytes 0 []

theorem utf8_append (s t : String) :
    (s ++ t).toUTF8.toList = s.toUTF8.toList ++ t.toUTF8.toList := by
  simp only [toList_eq, String.toUTF8_eq_toByteArray, String.toByteArray_append,
    ByteArray.data_append, Array.toList_append]

/-- The key that a name would have after any namespace. -/
def keyIn (space name : String) : Int64 :=
  Int64.ofInt (fnv1a32 (space ++ name).toUTF8.toList).toNat

theorem key_eq : key = keyIn nameSpace := rfl

theorem toInt_keyIn (space name : String) :
    (keyIn space name).toInt =
      (fnv1a32 (space.toUTF8.toList ++ name.toUTF8.toList)).toNat := by
  unfold keyIn
  rw [utf8_append]
  have hlt := (fnv1a32 (space.toUTF8.toList ++ name.toUTF8.toList)).toNat_lt
  exact Int64.toInt_ofInt_of_le (by omega) (by omega)

theorem toInt_key (name : String) :
    (key name).toInt = (fnv1a32 (nameSpace.toUTF8.toList ++ name.toUTF8.toList)).toNat :=
  toInt_keyIn nameSpace name

theorem keyIn_eq_iff : keyIn space name = keyIn space name' ↔
    fnv1a32 (space.toUTF8.toList ++ name.toUTF8.toList) =
      fnv1a32 (space.toUTF8.toList ++ name'.toUTF8.toList) := by
  rw [← Int64.toInt_inj, toInt_keyIn, toInt_keyIn, Int.natCast_inj, UInt32.toNat_inj]

theorem keyIn_ne (h : OneByteApart name.toUTF8.toList name'.toUTF8.toList) (space : String) :
    keyIn space name ≠ keyIn space name' :=
  mt keyIn_eq_iff.1 (h.fnv1a32_ne space.toUTF8.toList)

theorem toInt_keyIn_bounds (space name : String) :
    0 ≤ (keyIn space name).toInt ∧ (keyIn space name).toInt ≤ 2 ^ 32 - 1 := by
  have hlt := (fnv1a32 (space.toUTF8.toList ++ name.toUTF8.toList)).toNat_lt
  rw [toInt_keyIn]
  omega

/-- Texts that begin and end alike have one hash exactly if they have one without the end, whether
or not what is between is equally long. If it is one byte, they have one hash exactly if the byte is
the same. So names that differ in one byte have different keys, in any namespace and in the one that
locks use. Every key is a 32-bit word. -/
theorem keys_of_near_names_differ :
    (∀ p x y s : List UInt8,
      fnv1a32 (p ++ x ++ s) = fnv1a32 (p ++ y ++ s) ↔ fnv1a32 (p ++ x) = fnv1a32 (p ++ y)) ∧
    (∀ (p s : List UInt8) (a b : UInt8),
      fnv1a32 (p ++ [a] ++ s) = fnv1a32 (p ++ [b] ++ s) ↔ a = b) ∧
    (∀ space name name' : String, OneByteApart name.toUTF8.toList name'.toUTF8.toList →
      keyIn space name ≠ keyIn space name') ∧
    (∀ space name : String,
      0 ≤ (keyIn space name).toInt ∧ (keyIn space name).toInt ≤ 2 ^ 32 - 1) ∧
    key = keyIn nameSpace :=
  ⟨fun _ _ _ _ => fnv1a32_append_right_iff,
    fun _ _ _ _ => fnv1a32_append_right_iff.trans fnv1a32_append_byte_iff,
    fun space _ _ h => keyIn_ne h space, toInt_keyIn_bounds, key_eq⟩

/-- The names differ in the second byte of a letter that has two. -/
theorem keys_of_accents_differ :
    OneByteApart "clé".toUTF8.toList "clè".toUTF8.toList ∧ key "clé" ≠ key "clè" := by
  have hapart : OneByteApart "clé".toUTF8.toList "clè".toUTF8.toList := by
    rw [toList_eq, toList_eq]
    exact oneByteApart_of_split [99, 108, 195] [] (by decide : (169 : UInt8) ≠ 168)
  exact ⟨hapart, keys_of_near_names_differ.2.2.1 nameSpace "clé" "clè" hapart⟩

end Keys

end Lock
end AccessRegistry
