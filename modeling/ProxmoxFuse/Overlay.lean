import Mathlib.Tactic.Ring

/-!
# Writing into a flat sequence

A flat file is a list. Writing at an offset replaces what is there, extends the
list where it is too short, and fills a gap in front of the offset.
-/

namespace Overlay
variable {α : Type}

def write (fill : α) (content : List α) (offset : Nat) (data : List α) : List α :=
  content.take offset ++ List.replicate (offset - content.length) fill ++ data ++
    content.drop (offset + data.length)

theorem write_front_length (fill : α) (content : List α) (offset : Nat) :
    (content.take offset ++ List.replicate (offset - content.length) fill).length = offset := by
  simp only [List.length_append, List.length_take, List.length_replicate]
  omega

theorem write_length (fill : α) (content : List α) (offset : Nat) (data : List α) :
    (write fill content offset data).length = max content.length (offset + data.length) := by
  rw [write, List.length_append, List.length_append, write_front_length, List.length_drop]
  omega

/-- Writing past the end leaves nothing behind what was written. -/
theorem write_past (fill : α) {content : List α} {offset : Nat} {data : List α}
    (past : content.length ≤ offset + data.length) :
    write fill content offset data =
      content.take offset ++ List.replicate (offset - content.length) fill ++ data := by
  rw [write, List.drop_of_length_le past, List.append_nil]

/-- Writing behind a filled front keeps the front. -/
theorem write_shift (fill : α) (base : Nat) (content : List α) (offset : Nat) (data : List α) :
    write fill (List.replicate base fill ++ content) (base + offset) data =
      List.replicate base fill ++ write fill content offset data := by
  have gap : base + offset - (base + content.length) = offset - content.length := by omega
  have front : (List.replicate base fill ++ content).take (base + offset) =
      List.replicate base fill ++ content.take offset := by
    rw [List.take_append, List.length_replicate, List.take_of_length_le (by simp)]
    congr 2
    omega
  have back : (List.replicate base fill ++ content).drop (base + offset + data.length) =
      content.drop (offset + data.length) := by
    rw [List.drop_append, List.length_replicate, List.drop_of_length_le (by simp; omega),
      List.nil_append]
    congr 1
    omega
  simp only [write, front, back, List.length_append, List.length_replicate, gap, List.append_assoc]

/-- A first write into an empty file fills everything in front of it. -/
theorem write_nil (fill : α) (offset : Nat) (data : List α) :
    write fill [] offset data = List.replicate offset fill ++ data := by
  simp [write]

end Overlay
