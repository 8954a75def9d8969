import Mathlib.Tactic.Ring

/-!
# Tables with free slots

A list of slots, each empty or holding a value, beside a stack of the numbers of
the empty ones that may be used again. Slots below a first number are reserved.
-/

namespace Slots
variable {α : Type}

def get? (s : List (Option α)) (i : Nat) : Option α := s[i]?.join

def update (s : List (Option α)) (i : Nat) (f : α → α) : List (Option α) :=
  s.modify i (Option.map f)

@[simp] theorem length_update (s : List (Option α)) (i : Nat) (f : α → α) :
    (update s i f).length = s.length :=
  List.length_modify ..

theorem get?_update (s : List (Option α)) (i j : Nat) (f : α → α) :
    get? (update s i f) j = if i = j then (get? s j).map f else get? s j := by
  simp only [get?, update, List.getElem?_modify]
  split
  · rcases s[j]? with _ | _ | a
    · rfl
    · rfl
    · rfl
  · simp

theorem get?_set {s : List (Option α)} {i : Nat} (inside : i < s.length) (a : Option α) (j : Nat) :
    get? (s.set i a) j = if i = j then a else get? s j := by
  simp only [get?, List.getElem?_set, inside, if_true]
  split
  · rfl
  · rfl

theorem get?_append_none (s : List (Option α)) (j : Nat) : get? (s ++ [none]) j = get? s j := by
  simp only [get?]
  rcases Nat.lt_trichotomy j s.length with inside | rfl | outside
  · rw [List.getElem?_append_left inside]
  · simp
  · rw [List.getElem?_eq_none (by simp; omega), List.getElem?_eq_none (by omega)]

theorem lt_of_get? {s : List (Option α)} {i : Nat} {a : α} (here : get? s i = some a) :
    i < s.length := by
  by_contra outside
  rw [get?, List.getElem?_eq_none (by omega)] at here
  cases here

theorem update_update (s : List (Option α)) (i : Nat) (f g : α → α) :
    update (update s i f) i g = update s i (g ∘ f) := by
  simp only [update, List.modify_modify_eq]
  congr 1
  funext o
  cases o with
  | none => rfl
  | some a => rfl

theorem update_comm (s : List (Option α)) {i j : Nat} (ne : i ≠ j) (f g : α → α) :
    update (update s i f) j g = update (update s j g) i f := by
  apply List.ext_getElem?
  intro k
  simp only [update, List.getElem?_modify]
  by_cases first : i = k
  · have second : j ≠ k := fun same => ne (first.trans same.symm)
    simp [first, second]
  · simp [first]

theorem getElem?_of_get? {s : List (Option α)} {i : Nat} {a : α} (here : get? s i = some a) :
    s[i]? = some (some a) :=
  Option.join_eq_some_iff.mp here

theorem update_congr {s : List (Option α)} {i : Nat} {a : α} (here : get? s i = some a)
    {f g : α → α} (same : f a = g a) : update s i f = update s i g := by
  apply List.ext_getElem?
  intro j
  simp only [update, List.getElem?_modify]
  split
  · next eq =>
      subst eq
      rw [getElem?_of_get? here]
      simp [same]
  · rfl

theorem update_id {s : List (Option α)} {i : Nat} {a : α} (here : get? s i = some a) {f : α → α}
    (same : f a = a) :
    update s i f = s := by
  have identity : update s i f = update s i id := update_congr here same
  rw [identity]
  apply List.ext_getElem?
  intro j
  simp [update]

/-- The free numbers are those of the empty slots from `first` on, each once. -/
structure Free (first : Nat) (s : List (Option α)) (free : List Nat) : Prop where
  nodup : free.Nodup
  mem : ∀ i, i ∈ free ↔ first ≤ i ∧ i < s.length ∧ get? s i = none

variable {first : Nat} {s : List (Option α)} {free : List Nat}

theorem Free.update (f : Free first s free) (i : Nat) (g : α → α) :
    Free first (update s i g) free := by
  refine ⟨f.nodup, ?_⟩
  intro j
  rw [f.mem, length_update, get?_update]
  split
  · simp
  · rfl

/-- Emptying a slot frees its number. -/
theorem Free.release (f : Free first s free) {i : Nat} {a : α} (here : get? s i = some a)
    (low : first ≤ i) :
    Free first (s.set i none) (i :: free) := by
  have inside := lt_of_get? here
  refine ⟨List.nodup_cons.mpr ⟨?_, f.nodup⟩, ?_⟩
  · intro listed
    rw [((f.mem i).mp listed).2.2] at here
    cases here
  · intro j
    rw [List.mem_cons, f.mem, List.length_set, get?_set inside]
    split
    · next same =>
        subst same
        simp [low, inside]
    · next other => simp [Ne.symm other]

/-- Filling the slot of the first free number takes it off the stack. -/
theorem Free.reuse {i : Nat} {rest : List Nat} (f : Free first s (i :: rest)) (a : α) :
    Free first (s.set i (some a)) rest := by
  obtain ⟨fresh, nodup⟩ := List.nodup_cons.mp f.nodup
  have inside := ((f.mem i).mp List.mem_cons_self).2.1
  refine ⟨nodup, ?_⟩
  intro j
  rw [List.length_set, get?_set inside]
  split
  · next same =>
      subst same
      simp [fresh]
  · next other =>
      rw [← f.mem, List.mem_cons]
      simp [Ne.symm other]

/-- With no number to use again, a new slot is appended and filled. -/
theorem Free.extend (f : Free first s []) (a : α) :
    Free first ((s ++ [none]).set s.length (some a)) [] := by
  refine ⟨List.nodup_nil, ?_⟩
  intro j
  rw [List.length_set, get?_set (by simp), List.length_append, List.length_singleton,
    get?_append_none]
  split
  · next same => simp [same]
  · next other =>
      simp only [List.not_mem_nil, false_iff]
      rintro ⟨low, inside, empty⟩
      exact absurd ((f.mem j).mpr ⟨low, by omega, empty⟩) List.not_mem_nil

/-! ### Totals -/

/-- The sum of a weight over what the slots hold. -/
def total (weight : α → Nat) (s : List (Option α)) : Nat :=
  (s.map fun o => (o.map weight).getD 0).sum

theorem total_set (weight : α → Nat) {s : List (Option α)} {i : Nat} {a : α}
    (here : get? s i = some a) (b : Option α) :
    total weight (s.set i b) + weight a = total weight s + (b.map weight).getD 0 := by
  induction s generalizing i with
  | nil => simp [get?] at here
  | cons o s ih =>
      cases i with
      | zero =>
          have first : o = some a := by simpa [get?] using here
          simp only [total, first, List.set_cons_zero, List.map_cons, List.sum_cons,
            Option.map_some, Option.getD_some]
          omega
      | succ i =>
          have rest := ih (by simpa [get?] using here)
          simp only [total, List.set_cons_succ, List.map_cons, List.sum_cons] at rest ⊢
          omega

theorem total_clear_le (weight : α → Nat) (s : List (Option α)) (i : Nat) :
    total weight (s.set i none) ≤ total weight s := by
  induction s generalizing i with
  | nil => exact le_rfl
  | cons o s ih =>
      cases i with
      | zero =>
          simp only [total, List.set_cons_zero, List.map_cons, List.sum_cons]
          simp
      | succ i =>
          simp only [total, List.set_cons_succ, List.map_cons, List.sum_cons]
          exact Nat.add_le_add_left (ih i) _

theorem update_eq_set {s : List (Option α)} {i : Nat} {a : α} (here : get? s i = some a)
    (f : α → α) :
    update s i f = s.set i (some (f a)) := by
  apply List.ext_getElem?
  intro j
  rw [update, List.getElem?_modify, List.getElem?_set]
  split
  · next same =>
      subst same
      rw [getElem?_of_get? here, if_pos (lt_of_get? here)]
      rfl
  · simp

theorem total_update (weight : α → Nat) {s : List (Option α)} {i : Nat} {a : α}
    (here : get? s i = some a) (f : α → α) :
    total weight (update s i f) + weight a = total weight s + weight (f a) := by
  rw [update_eq_set here, total_set weight here]
  rfl

end Slots
