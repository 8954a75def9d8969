import Mathlib.Data.List.Basic
import Mathlib.Tactic.Ring

/-!
# Streams of padded records

A record is a header of a fixed size, a body whose length the header states, and
padding up to a multiple of the alignment. `split` walks such a stream the way a
consumer of it does: it stops when less than a header is left, or less than the
record that the header announces.
-/

namespace Records
variable {β : Type}

structure Layout (β : Type) where
  headerSize : Nat
  headed : 0 < headerSize
  align : Nat
  aligned : 0 < align
  /-- The length of the body, from the header. -/
  bodyLen : List β → Nat

/-- The next multiple of `align`. -/
def alignUp (align n : Nat) : Nat := (n + (align - 1)) / align * align

theorem le_alignUp {align : Nat} (positive : 0 < align) (n : Nat) : n ≤ alignUp align n := by
  have lower := Nat.lt_div_mul_add positive (a := n + (align - 1))
  simp only [alignUp]
  omega

theorem dvd_alignUp (align n : Nat) : align ∣ alignUp align n := Nat.dvd_mul_left align _

namespace Layout
variable (l : Layout β)

/-- The bytes that a record with a body of length `n` takes. -/
def extent (n : Nat) : Nat := alignUp l.align (l.headerSize + n)

theorem le_extent (n : Nat) : l.headerSize + n ≤ l.extent n := le_alignUp l.aligned _

/-- One record in the stream. -/
def pack (pad : β) (header body : List β) : List β :=
  header ++ body ++ List.replicate (l.extent body.length - (l.headerSize + body.length)) pad

/-- The records of a stream, and what is left of it; `fuel` bounds their number. -/
def split : Nat → List β → List (List β × List β) × List β
  | 0, stream => ([], stream)
  | fuel+1, stream =>
      if stream.length < l.headerSize then ([], stream)
      else
        let header := stream.take l.headerSize
        let size := l.bodyLen header
        if stream.length < l.extent size then ([], stream)
        else
          let (records, left) := split fuel (stream.drop (l.extent size))
          ((header, (stream.drop l.headerSize).take size) :: records, left)

/-- A record takes at least its header, so a stream has no more records than elements. -/
def parse (stream : List β) : List (List β × List β) × List β := l.split stream.length stream

/-- Headers have their size and state the length of the body that follows. -/
structure Framed (header body : List β) : Prop where
  size : header.length = l.headerSize
  states : l.bodyLen header = body.length

variable {l} {header body : List β}

theorem Framed.pack_length (framed : l.Framed header body) (pad : β) :
    (l.pack pad header body).length = l.extent body.length := by
  have fits := l.le_extent body.length
  simp only [pack, List.length_append, List.length_replicate, framed.size]
  omega

theorem Framed.align_dvd (framed : l.Framed header body) (pad : β) :
    l.align ∣ (l.pack pad header body).length := by
  rw [framed.pack_length]
  exact dvd_alignUp _ _

/-- A record in front is taken off whole, and the rest is split on its own. -/
theorem Framed.split_pack (framed : l.Framed header body) (pad : β) (fuel : Nat) (rest : List β) :
    l.split (fuel + 1) (l.pack pad header body ++ rest) =
      ((header, body) :: (l.split fuel rest).1, (l.split fuel rest).2) := by
  have length := framed.pack_length pad
  have fits := l.le_extent body.length
  have stream : l.pack pad header body ++ rest = header ++ (body ++
      (List.replicate (l.extent body.length - (l.headerSize + body.length)) pad ++ rest)) := by
    simp [pack]
  have head : (l.pack pad header body ++ rest).take l.headerSize = header := by
    rw [stream, List.take_left' framed.size]
  have next : ((l.pack pad header body ++ rest).drop l.headerSize).take body.length = body := by
    rw [stream, List.drop_left' framed.size, List.take_left]
  have after : (l.pack pad header body ++ rest).drop (l.extent body.length) = rest :=
    List.drop_left' length
  simp only [split, head, framed.states, next, after, List.length_append, length]
  rw [if_neg (by omega), if_neg (by omega)]

/-- A stream of records and less than a header after them splits into exactly these. -/
theorem split_flatMap {α : Type} {headerOf bodyOf : α → List β} (pad : β) (items : List α)
    (left : List β) (framed : ∀ a ∈ items, l.Framed (headerOf a) (bodyOf a))
    (short : left.length < l.headerSize) {fuel : Nat} (enough : items.length ≤ fuel) :
    l.split fuel (items.flatMap (fun a => l.pack pad (headerOf a) (bodyOf a)) ++ left) =
      (items.map (fun a => (headerOf a, bodyOf a)), left) := by
  induction items generalizing fuel with
  | nil =>
      cases fuel with
      | zero => rfl
      | succ fuel => simp [split, short]
  | cons a rest ih =>
      cases fuel with
      | zero => simp at enough
      | succ fuel =>
          have tail := ih (fun b member => framed b (List.mem_cons_of_mem _ member))
            (Nat.le_of_succ_le_succ enough)
          rw [List.flatMap_cons, List.append_assoc, (framed a List.mem_cons_self).split_pack, tail,
            List.map_cons]

theorem flatMap_length {α : Type} {headerOf bodyOf : α → List β} (pad : β) (items : List α)
    (framed : ∀ a ∈ items, l.Framed (headerOf a) (bodyOf a)) :
    l.align ∣ (items.flatMap fun a => l.pack pad (headerOf a) (bodyOf a)).length ∧
      items.length ≤ (items.flatMap fun a => l.pack pad (headerOf a) (bodyOf a)).length := by
  induction items with
  | nil => simp
  | cons a rest ih =>
      have first := framed a List.mem_cons_self
      obtain ⟨divides, enough⟩ := ih fun b member => framed b (List.mem_cons_of_mem _ member)
      have length := first.pack_length pad
      have fits := l.le_extent (bodyOf a).length
      have headed := l.headed
      rw [List.flatMap_cons, List.length_append]
      refine ⟨Nat.dvd_add (first.align_dvd pad) divides, ?_⟩
      rw [List.length_cons, length]
      omega

theorem parse_flatMap {α : Type} {headerOf bodyOf : α → List β} (pad : β) (items : List α)
    (framed : ∀ a ∈ items, l.Framed (headerOf a) (bodyOf a)) :
    l.parse (items.flatMap fun a => l.pack pad (headerOf a) (bodyOf a)) =
      (items.map (fun a => (headerOf a, bodyOf a)), []) := by
  have enough := (flatMap_length pad items framed).2
  have all := split_flatMap pad items [] framed l.headed enough
  rwa [List.append_nil] at all

end Layout
end Records
