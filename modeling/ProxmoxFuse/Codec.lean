import Mathlib.Data.List.TakeWhile
import Mathlib.Data.Vector.Basic
import Mathlib.Logic.Relation
import Mathlib.Tactic.Ring

/-!
# Packed records over byte lists

Little-endian words of a fixed width, and a class of types with a fixed byte
layout: a size, a writer and a reader, with the law that the reader undoes the
writer whatever follows. Products and vectors are laid out one component after
the other with no padding, which is what a C struct with explicit padding
fields looks like in memory.
-/

abbrev Bytes := List UInt8

/-- The `w` low bytes of `n`, least significant first. -/
def leBytes : Nat → Nat → Bytes
  | 0, _ => []
  | w+1, n => UInt8.ofNat n :: leBytes w (n / 256)

def leValue : Bytes → Nat
  | [] => 0
  | b :: bs => b.toNat + 256 * leValue bs

@[simp] theorem leBytes_length (w n : Nat) : (leBytes w n).length = w := by
  induction w generalizing n with
  | zero => rfl
  | succ w ih => simp only [leBytes, List.length_cons, ih]

theorem leValue_leBytes (w n : Nat) : leValue (leBytes w n) = n % 256 ^ w := by
  induction w generalizing n with
  | zero => simp only [leBytes, leValue, pow_zero, Nat.mod_one]
  | succ w ih =>
      have low : (UInt8.ofNat n).toNat = n % 256 := UInt8.toNat_ofNat'
      rw [leBytes, leValue, ih, low, pow_succ', Nat.mod_mul]

/-- A type with a fixed byte layout. -/
class Packed (α : Type) where
  size : Nat
  bytes : α → Bytes
  ofBytes : Bytes → α
  bytes_length : ∀ a, (bytes a).length = size
  ofBytes_append : ∀ a rest, ofBytes (bytes a ++ rest) = a

attribute [simp] Packed.bytes_length Packed.ofBytes_append

namespace Packed

@[simp] theorem ofBytes_bytes {α : Type} [Packed α] (a : α) : ofBytes (bytes a) = a := by
  simpa only [List.append_nil] using ofBytes_append a []

/-- A machine word of `w` bytes, given by its value. -/
@[reducible] def word {α : Type} (w : Nat) (toNat : α → Nat) (ofNat : Nat → α)
    (h : ∀ a, ofNat (toNat a % 256 ^ w) = a) : Packed α where
  size := w
  bytes a := leBytes w (toNat a)
  ofBytes bs := ofNat (leValue (bs.take w))
  bytes_length a := leBytes_length w (toNat a)
  ofBytes_append a rest := by
    rw [List.take_left' (leBytes_length w (toNat a)), leValue_leBytes, h]

instance : Packed UInt16 := word 2 UInt16.toNat UInt16.ofNat (by simp)

instance : Packed UInt32 := word 4 UInt32.toNat UInt32.ofNat (by simp)

instance : Packed UInt64 := word 8 UInt64.toNat UInt64.ofNat (by simp)

/-- A layout carried along a map that has a left inverse. -/
@[reducible] def via {α β : Type} [Packed α] (pack : β → α) (unpack : α → β)
    (h : ∀ b, unpack (pack b) = b) :
    Packed β where
  size := size α
  bytes b := bytes (pack b)
  ofBytes bs := unpack (ofBytes bs)
  bytes_length b := bytes_length (pack b)
  ofBytes_append b rest := by rw [ofBytes_append, h]

instance : Packed Int32 := via Int32.toUInt32 UInt32.toInt32 (by intro b; simp)

instance {α β : Type} [Packed α] [Packed β] : Packed (α × β) where
  size := size α + size β
  bytes p := bytes p.1 ++ bytes p.2
  ofBytes bs := (ofBytes bs, ofBytes (bs.drop (size α)))
  bytes_length p := by rw [List.length_append, bytes_length, bytes_length]
  ofBytes_append p rest := by
    rw [List.append_assoc, ofBytes_append, List.drop_left' (bytes_length p.1), ofBytes_append]

/-- The items of an array one after the other. -/
def arrayBytes {α : Type} [Packed α] (xs : List α) : Bytes := xs.flatMap bytes

def arrayOfBytes {α : Type} [Packed α] : Nat → Bytes → List α
  | 0, _ => []
  | n+1, bs => ofBytes bs :: arrayOfBytes n (bs.drop (size α))

theorem arrayOfBytes_length {α : Type} [Packed α] (n : Nat) (bs : Bytes) :
    (arrayOfBytes (α := α) n bs).length = n := by
  induction n generalizing bs with
  | zero => rfl
  | succ n ih => simp only [arrayOfBytes, List.length_cons, ih]

theorem arrayBytes_length {α : Type} [Packed α] (xs : List α) :
    (arrayBytes xs).length = xs.length * size α := by
  induction xs with
  | nil => simp [arrayBytes]
  | cons x xs ih =>
      simp only [arrayBytes, List.flatMap_cons, List.length_append, bytes_length,
        List.length_cons, Nat.succ_mul] at ih ⊢
      omega

theorem arrayOfBytes_append {α : Type} [Packed α] (xs : List α) (rest : Bytes) :
    arrayOfBytes xs.length (arrayBytes xs ++ rest) = xs := by
  induction xs with
  | nil => rfl
  | cons x xs ih =>
      simp only [arrayBytes, List.flatMap_cons, List.append_assoc, List.length_cons,
        arrayOfBytes, ofBytes_append] at ih ⊢
      rw [List.drop_left' (bytes_length x), ih]

instance {α : Type} [Packed α] {n : Nat} : Packed (List.Vector α n) where
  size := n * size α
  bytes v := arrayBytes v.toList
  ofBytes bs := ⟨arrayOfBytes n bs, arrayOfBytes_length n bs⟩
  bytes_length v := by rw [arrayBytes_length, List.Vector.toList_length]
  ofBytes_append v rest := by
    obtain ⟨xs, rfl⟩ := v
    exact Subtype.ext (arrayOfBytes_append xs rest)

end Packed
