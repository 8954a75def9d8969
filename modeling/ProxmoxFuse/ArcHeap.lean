import Mathlib.Logic.Function.Basic

/-!
# Reference-counted cells

Cells named by identity, each with its contents and its strong count. `Counted`
ties the counts to the references that actually exist; the operations move both
together, and a cell whose count is one has no second reference.
-/

structure ArcHeap (α : Type) where
  value : Nat → α
  strong : Nat → Nat
  next : Nat

namespace ArcHeap
variable {α : Type}

/-- A fresh cell with one reference. -/
def alloc (h : ArcHeap α) (a : α) : Nat × ArcHeap α :=
  (h.next,
    { value := Function.update h.value h.next a
      strong := Function.update h.strong h.next 1
      next := h.next + 1 })

def retain (h : ArcHeap α) (i : Nat) : ArcHeap α :=
  { h with strong := Function.update h.strong i (h.strong i + 1) }

def release (h : ArcHeap α) (i : Nat) : ArcHeap α :=
  { h with strong := Function.update h.strong i (h.strong i - 1) }

/-- Exclusive access exists exactly for the last reference. -/
def getMut (h : ArcHeap α) (i : Nat) : Option α :=
  if h.strong i = 1 then some (h.value i) else none

def set (h : ArcHeap α) (i : Nat) (a : α) : ArcHeap α :=
  { h with value := Function.update h.value i a }

/-- The contribution of one reference to `i`. -/
def ref (i j : Nat) : Nat := if j = i then 1 else 0

@[simp] theorem ref_self (i : Nat) : ref i i = 1 := by simp [ref]

theorem ref_ne {i j : Nat} (h : j ≠ i) : ref i j = 0 := by simp [ref, h]

/-- `refs i` is the number of references to `i` that exist outside the heap. -/
structure Counted (h : ArcHeap α) (refs : Nat → Nat) : Prop where
  strong : ∀ i, h.strong i = refs i
  fresh : ∀ i, h.next ≤ i → refs i = 0

theorem Counted.lt_next {h : ArcHeap α} {refs : Nat → Nat} (c : Counted h refs) {i : Nat}
    (held : 0 < refs i) : i < h.next := by
  by_contra old
  have none := c.fresh i (Nat.not_lt.mp old)
  omega

theorem Counted.alloc {h : ArcHeap α} {refs : Nat → Nat} (c : Counted h refs) (a : α) :
    Counted (h.alloc a).2 (fun j => refs j + ref h.next j) := by
  constructor
  · intro j
    by_cases same : j = h.next
    · subst same
      simp [ArcHeap.alloc, c.fresh h.next (Nat.le_refl _)]
    · simp [ArcHeap.alloc, Function.update_of_ne same, ref_ne same, c.strong j]
  · intro j old
    have old' : h.next + 1 ≤ j := old
    rw [c.fresh j (by omega), ref_ne (by omega)]

theorem Counted.retain {h : ArcHeap α} {refs : Nat → Nat} (c : Counted h refs) {i : Nat}
    (live : i < h.next) : Counted (h.retain i) (fun j => refs j + ref i j) := by
  constructor
  · intro j
    by_cases same : j = i
    · subst same
      simp [ArcHeap.retain, c.strong j]
    · simp [ArcHeap.retain, Function.update_of_ne same, ref_ne same, c.strong j]
  · intro j old
    have old' : h.next ≤ j := old
    rw [c.fresh j old', ref_ne (by omega)]

theorem Counted.release {h : ArcHeap α} {refs : Nat → Nat} {i : Nat}
    (c : Counted h (fun j => refs j + ref i j)) : Counted (h.release i) refs := by
  constructor
  · intro j
    have now := c.strong j
    by_cases same : j = i
    · subst same
      simp only [ref_self] at now
      simp only [ArcHeap.release, Function.update_self]
      omega
    · simp only [ref_ne same] at now
      simp only [ArcHeap.release, Function.update_of_ne same]
      omega
  · intro j old
    have none := c.fresh j old
    omega

theorem Counted.set {h : ArcHeap α} {refs : Nat → Nat} (c : Counted h refs) (i : Nat) (a : α) :
    Counted (h.set i a) refs := ⟨c.strong, c.fresh⟩

/-- Exclusive access means that no other reference exists. -/
theorem Counted.getMut_isSome {h : ArcHeap α} {refs : Nat → Nat} {i : Nat}
    (c : Counted h (fun j => refs j + ref i j)) : (h.getMut i).isSome ↔ refs i = 0 := by
  have now := c.strong i
  simp only [ref_self] at now
  by_cases one : h.strong i = 1
  · simp only [getMut, one, if_true, Option.isSome_some, true_iff]
    omega
  · simp only [getMut, one, if_false, Option.isSome_none, Bool.false_eq_true, false_iff]
    omega

@[simp] theorem retain_value (h : ArcHeap α) (i : Nat) : (h.retain i).value = h.value := rfl

@[simp] theorem release_value (h : ArcHeap α) (i : Nat) : (h.release i).value = h.value := rfl

theorem set_value_of_ne (h : ArcHeap α) {i j : Nat} (a : α) (different : j ≠ i) :
    (h.set i a).value j = h.value j := Function.update_of_ne different _ _

@[simp] theorem set_value_self (h : ArcHeap α) (i : Nat) (a : α) : (h.set i a).value i = a :=
  Function.update_self ..

theorem alloc_value_of_ne (h : ArcHeap α) {j : Nat} (a : α) (different : j ≠ h.next) :
    (h.alloc a).2.value j = h.value j := Function.update_of_ne different _ _

end ArcHeap
