import Mathlib.Logic.Basic

/-!
# What a fallible computation returns

`Returns Q x` is the partial-correctness judgement for `Except`: whenever `x`
returns a value, the value has `Q`; `Raises P x` says the same of its errors, and
`Fails x` that there is one. `Cramped` compares a computation with the same one in
less room. The rules follow a `do` block from its first line to its last.
-/

theorem Except.ok_bind {ε α β : Type} (a : α) (f : α → Except ε β) :
    ((.ok a : Except ε α) >>= f) = f a := rfl

def Returns {ε α : Type} (Q : α → Prop) (x : Except ε α) : Prop := ∀ a, x = .ok a → Q a

namespace Returns
variable {ε α β : Type}

theorem pure {Q : α → Prop} {a : α} (h : Q a) : Returns Q (Pure.pure a : Except ε α) := by
  intro b same
  cases same
  exact h

theorem error {Q : α → Prop} {e : ε} : Returns Q (.error e : Except ε α) := by
  intro b same
  cases same

theorem bind {Q : β → Prop} {x : Except ε α} {f : α → Except ε β}
    (h : ∀ a, x = .ok a → Returns Q (f a)) : Returns Q (x >>= f) := by
  intro b same
  cases x with
  | error e => cases same
  | ok a => exact h a rfl b same

theorem ite {Q : α → Prop} {p : Prop} [Decidable p] {x y : Except ε α} (yes : p → Returns Q x)
    (no : ¬ p → Returns Q y) : Returns Q (if p then x else y) := by
  split
  · next h => exact yes h
  · next h => exact no h

end Returns

def Raises {ε α : Type} (P : ε → Prop) (x : Except ε α) : Prop := ∀ e, x = .error e → P e

namespace Raises
variable {ε α β : Type} {P : ε → Prop}

theorem ok {a : α} : Raises P (.ok a : Except ε α) := by
  intro e same
  cases same

theorem error {e : ε} (h : P e) : Raises P (.error e : Except ε α) := by
  intro e' same
  cases same
  exact h

theorem bind {x : Except ε α} {f : α → Except ε β} (first : Raises P x)
    (next : ∀ a, x = .ok a → Raises P (f a)) : Raises P (x >>= f) := by
  intro e same
  cases x with
  | error e' =>
      cases same
      exact first e rfl
  | ok a => exact next a rfl e same

theorem ite {p : Prop} [Decidable p] {x y : Except ε α} (yes : p → Raises P x)
    (no : ¬ p → Raises P y) :
    Raises P (if p then x else y) := by
  split
  · next h => exact yes h
  · next h => exact no h

end Raises

def Fails {ε α : Type} (x : Except ε α) : Prop := ∃ e, x = .error e

namespace Fails
variable {ε α β : Type}

@[simp] theorem error_iff {e : ε} : Fails (.error e : Except ε α) ↔ True :=
  iff_of_true ⟨e, rfl⟩ trivial

@[simp] theorem ok_iff {a : α} : Fails (.ok a : Except ε α) ↔ False := by
  refine iff_of_false ?_ id
  rintro ⟨e, same⟩
  cases same

theorem ne_ok {x : Except ε α} (fails : Fails x) (a : α) : x ≠ .ok a := by
  rintro rfl
  exact ok_iff.mp fails

@[simp] theorem pure_iff {a : α} : Fails (Pure.pure a : Except ε α) ↔ False := ok_iff

theorem bind_iff {x : Except ε α} {f : α → Except ε β} :
    Fails (x >>= f) ↔ Fails x ∨ ∃ a, x = .ok a ∧ Fails (f a) := by
  cases x with
  | error e => exact iff_of_true ⟨e, rfl⟩ (.inl ⟨e, rfl⟩)
  | ok a =>
      constructor
      · intro failed
        exact .inr ⟨a, rfl, failed⟩
      · rintro (⟨e, same⟩ | ⟨b, same, failed⟩)
        · cases same
        · cases same
          exact failed

/-- It fails if it does whatever its first step returns. -/
theorem bind {x : Except ε α} {f : α → Except ε β} (next : ∀ a, x = .ok a → Fails (f a)) :
    Fails (x >>= f) := by
  cases x with
  | error e => exact ⟨e, rfl⟩
  | ok a => exact next a rfl

theorem ite_iff {p : Prop} [Decidable p] {x y : Except ε α} :
    Fails (if p then x else y) ↔ (p ∧ Fails x) ∨ (¬ p ∧ Fails y) := by
  split
  · next h => simp [h]
  · next h => simp [h]

/-- A computation whose continuation cannot fail fails where its first step does. -/
theorem bind_iff_left {x : Except ε α} {f : α → Except ε β}
    (next : ∀ a, x = .ok a → ¬ Fails (f a)) :
    Fails (x >>= f) ↔ Fails x := by
  rw [bind_iff]
  refine or_iff_left ?_
  rintro ⟨a, same, failed⟩
  exact next a same failed

end Fails

/-- The same computation in less room: nothing is different, or it ran out of it, and then
`deep` says how much it was. -/
inductive Cramped {ε α : Type} (overflow : ε) (deep : Prop) (full : Except ε α) :
    Except ε α → Prop where
  | same : Cramped overflow deep full full
  | ran (why : deep) : Cramped overflow deep full (.error overflow)

namespace Cramped
variable {ε α β : Type} {overflow : ε} {deep deep' : Prop}

theorem mono {x y : Except ε α} (cramped : Cramped overflow deep x y) (weaker : deep → deep') :
    Cramped overflow deep' x y := by
  cases cramped with
  | same => exact .same
  | ran why => exact .ran (weaker why)

theorem bind {x y : Except ε α} {f g : α → Except ε β} (first : Cramped overflow deep x y)
    (next : ∀ a, x = .ok a → Cramped overflow deep (f a) (g a)) :
    Cramped overflow deep (x >>= f) (y >>= g) := by
  cases first with
  | ran why => exact .ran why
  | same =>
      cases x with
      | error e => exact .same
      | ok a => exact next a rfl

theorem ite {p : Prop} [Decidable p] {x y x' y' : Except ε α}
    (yes : p → Cramped overflow deep x x') (no : ¬ p → Cramped overflow deep y y') :
    Cramped overflow deep (if p then x else y) (if p then x' else y') := by
  split
  · next h => exact yes h
  · next h => exact no h

/-- What comes back in less room comes back in more, and is the same. -/
theorem returned {x y : Except ε α} (cramped : Cramped overflow deep x y) {a : α}
    (done : y = .ok a) : x = .ok a := by
  cases cramped with
  | same => exact done
  | ran why => cases done

end Cramped
