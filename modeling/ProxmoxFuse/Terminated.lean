import Mathlib.Data.List.Basic

/-!
# Terminated lists

A sequence of lists, each followed by a terminator, written one after the other.
`split` cuts such a sequence at its terminators and keeps what follows the last
one apart. It returns the lists that were written exactly if none of them holds the
terminator itself.
-/

namespace Terminated
variable {α : Type} (t : α)

def join (pieces : List (List α)) : List α := pieces.flatMap (· ++ [t])

variable [DecidableEq α]

/-- The terminated pieces, and what is left behind the last terminator. -/
def split : List α → List (List α) × List α
  | [] => ([], [])
  | x :: rest =>
      if x = t then ([] :: (split rest).1, (split rest).2)
      else
        match (split rest).1 with
        | [] => ([], x :: (split rest).2)
        | piece :: pieces => ((x :: piece) :: pieces, (split rest).2)

variable {t}

/-- A piece without terminator in front is cut off whole. -/
theorem split_append {piece : List α} (clean : t ∉ piece) (rest : List α) :
    split t (piece ++ t :: rest) = (piece :: (split t rest).1, (split t rest).2) := by
  induction piece with
  | nil => simp [split]
  | cons x piece ih =>
      have other : x ≠ t := fun same => clean (same ▸ List.mem_cons_self)
      have tail := ih fun member => clean (List.mem_cons_of_mem x member)
      rw [List.cons_append, split, if_neg other, tail]

theorem not_mem_of_split {xs piece : List α} (member : piece ∈ (split t xs).1) : t ∉ piece := by
  induction xs generalizing piece with
  | nil => simp [split] at member
  | cons x rest ih =>
      rw [split] at member
      split at member
      · rcases List.mem_cons.mp member with rfl | later
        · exact List.not_mem_nil
        · exact ih later
      · next other =>
          split at member
          · simp at member
          · next first pieces found =>
              rcases List.mem_cons.mp member with rfl | later
              · have clean : t ∉ first := ih (by rw [found]; exact List.mem_cons_self)
                intro held
                rcases List.mem_cons.mp held with same | inside
                · exact other same.symm
                · exact clean inside
              · exact ih (by rw [found]; exact List.mem_cons_of_mem first later)

/-- Splitting undoes joining exactly on pieces that do not hold the terminator. -/
theorem split_join_iff (pieces : List (List α)) :
    split t (join t pieces) = (pieces, []) ↔ ∀ piece ∈ pieces, t ∉ piece := by
  constructor
  · intro same piece member
    have cut : piece ∈ (split t (join t pieces)).1 := by
      rw [same]
      exact member
    exact not_mem_of_split cut
  · intro clean
    induction pieces with
    | nil => rfl
    | cons piece pieces ih =>
        have tail := ih fun other member => clean other (List.mem_cons_of_mem piece member)
        have first : join t (piece :: pieces) = piece ++ t :: join t pieces := by simp [join]
        rw [first, split_append (clean piece List.mem_cons_self), tail]

end Terminated
