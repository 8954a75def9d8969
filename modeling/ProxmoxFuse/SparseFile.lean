import ProxmoxFuse.BlockFile
import ProxmoxFuse.Overlay
import ProxmoxFuse.Returns

/-!
# The sparse file as a flat file

What the extents of a `BlockFile` spell out is a flat byte sequence with zeroes in
the gaps. The search finds its way among extents in order, reads return a slice of
the content and truncating cuts it.
-/
namespace ProxmoxFuse.BlockFile

/-! ### The search -/

/-- Extents in order and without overlap. -/
def Apart (es : List Extent) : Prop := es.Pairwise fun a b => a.offset < b.offset ∧ a.end ≤ b.offset

/-- Where a search may end: on an extent that starts at the offset, or between
the extents in front of it and those behind it. -/
inductive Searched (es : List Extent) (offset : Nat) : Except (Int × Int) Nat → Prop where
  | found (front : List Extent) (e : Extent) (back : List Extent) (split : es = front ++ e :: back)
      (starts : e.offset = offset) : Searched es offset (.ok front.length)
  | between (front back : List Extent) (split : es = front ++ back)
      (below : ∀ e ∈ front, e.offset < offset) (above : ∀ e ∈ back, offset < e.offset) :
      Searched es offset (.error ((front.length : Int) - 1, front.length))

theorem Apart.sorted {es : List Extent} (apart : Apart es) {i j : Nat} (before : i ≤ j)
    (inside : j < es.length) :
    es[i].offset ≤ es[j].offset := by
  rcases Nat.lt_or_eq_of_le before with lt | eq
  · exact (List.pairwise_iff_getElem.mp apart i j (by omega) inside lt).1.le
  · subst eq
    exact le_rfl

/-- When the gap has closed, the extents in front of it and those behind it are all there are. -/
theorem searched_between {es : List Extent} {offset : Nat} {a b : Int} (low : -1 ≤ a)
    (high : b ≤ es.length) (closed : b = a + 1)
    (below : ∀ i (inside : i < es.length), (i : Int) ≤ a → es[i].offset < offset)
    (above : ∀ i (inside : i < es.length), b ≤ (i : Int) → offset < es[i].offset) :
    Searched es offset (.error (a, b)) := by
  obtain ⟨n, rfl⟩ : ∃ n : Nat, b = n := ⟨b.toNat, by omega⟩
  obtain rfl : a = (n : Int) - 1 := by omega
  have len : (es.take n).length = n := List.length_take_of_le (by omega)
  have front : ∀ e ∈ es.take n, e.offset < offset := by
    intro e member
    obtain ⟨i, inside, rfl⟩ := List.getElem_of_mem member
    rw [List.getElem_take]
    rw [len] at inside
    exact below i (by omega) (by omega)
  have back : ∀ e ∈ es.drop n, offset < e.offset := by
    intro e member
    obtain ⟨i, inside, rfl⟩ := List.getElem_of_mem member
    rw [List.getElem_drop]
    rw [List.length_drop] at inside
    exact above (n + i) (by omega) (by omega)
  have done := Searched.between _ _ (List.take_append_drop n es).symm front back
  rwa [len] at done

theorem searched_found {es : List Extent} {i : Nat} (inside : i < es.length) :
    Searched es es[i].offset (.ok i) := by
  have split : es = es.take i ++ es[i] :: es.drop (i + 1) := by
    rw [List.getElem_cons_drop, List.take_append_drop]
  have done := Searched.found _ _ _ split rfl
  rwa [List.length_take_of_le inside.le] at done

theorem searchLoop_searched {es : List Extent} (apart : Apart es) {offset rounds : Nat} {a b : Int}
    (low : -1 ≤ a) (high : b ≤ es.length) (gap : a < b) (enough : b - a ≤ rounds + 1)
    (below : ∀ i (inside : i < es.length), (i : Int) ≤ a → es[i].offset < offset)
    (above : ∀ i (inside : i < es.length), b ≤ (i : Int) → offset < es[i].offset) :
    Searched es offset (searchLoop es offset rounds a b low high) := by
  induction rounds generalizing a b with
  | zero =>
      simp only [searchLoop]
      exact searched_between low high (by omega) below above
  | succ rounds ih =>
      simp only [searchLoop]
      split
      · next more =>
          have inside : (a + (b - a) / 2).toNat < es.length := by omega
          split
          · next lower =>
              refine ih _ _ (by omega) (by omega) below ?_
              intro i inRange behind
              exact Nat.lt_of_lt_of_le lower (apart.sorted (by omega) inRange)
          · next notLower =>
              split
              · next higher =>
                  refine ih _ _ (by omega) (by omega) ?_ above
                  intro i inRange before
                  exact Nat.lt_of_le_of_lt (apart.sorted (by omega) inside) higher
              · next notHigher =>
                  obtain rfl : offset = es[(a + (b - a) / 2).toNat].offset := by omega
                  exact searched_found inside
      · next done => exact searched_between low high (by omega) below above

/-- What `search_extent` finds among extents in order. -/
inductive Located (es : List Extent) (offset : Nat) (bias : SearchBias) :
    Except Int Nat → Prop where
  | found (front : List Extent) (e : Extent) (back : List Extent) (split : es = front ++ e :: back)
      (starts : e.offset = offset) : Located es offset bias (.ok front.length)
  | between (front back : List Extent) (split : es = front ++ back)
      (below : ∀ e ∈ front, e.offset < offset) (above : ∀ e ∈ back, offset < e.offset) :
      Located es offset bias (.error (if bias = .low then (front.length : Int) - 1
        else front.length))

theorem searchExtent_located {f : BlockFile} (apart : Apart f.extents) (offset : Nat)
    (bias : SearchBias) :
    Located f.extents offset bias (f.searchExtent offset bias) := by
  have searched : Searched f.extents offset
      (searchLoop f.extents offset f.extents.length (-1) f.extents.length (by omega)
        (by omega)) := by
    refine searchLoop_searched apart _ _ (by omega) (by omega) ?_ ?_
    · intro i inside low
      exact absurd low (by omega)
    · intro i inside high
      exact absurd high (by omega)
  unfold searchExtent
  generalize searchLoop f.extents offset f.extents.length (-1) f.extents.length (by omega)
    (by omega) = r
    at searched ⊢
  cases searched with
  | found front e back split starts => exact .found front e back split starts
  | between front back split below above =>
      cases bias with
      | low => exact .between front back split below above
      | high => exact .between front back split below above

/-! ### What the extents spell out -/

/-- The bytes from position `at` on, with zeroes in the gaps. -/
def render (start : Nat) : List Extent → Bytes
  | [] => []
  | e :: es => List.replicate (e.offset - start) 0 ++ e.data ++ render e.end es

def content (f : BlockFile) : Bytes := render 0 f.extents

/-- Extents in order that begin behind `start`. -/
def ApartFrom (start : Nat) (es : List Extent) : Prop := Apart es ∧ ∀ e ∈ es, start ≤ e.offset

theorem ApartFrom.tail {start : Nat} {e : Extent} {es : List Extent}
    (apart : ApartFrom start (e :: es)) :
    ApartFrom e.end es := by
  obtain ⟨behind, rest⟩ := List.pairwise_cons.mp apart.1
  exact ⟨rest, fun next member => (behind next member).2⟩

theorem ApartFrom.weaken {start start' : Nat} {es : List Extent} (apart : ApartFrom start es)
    (before : start' ≤ start) : ApartFrom start' es :=
  ⟨apart.1, fun e member => before.trans (apart.2 e member)⟩

theorem resizeZero_append (front back : Bytes) (n : Nat) :
    resizeZero (front ++ back) n = front.take n ++ resizeZero back (n - front.length) := by
  simp only [resizeZero, List.take_append, List.length_append, List.append_assoc]
  congr 3
  omega

theorem resizeZero_zeroes (gap n : Nat) (back : Bytes) :
    resizeZero (List.replicate gap 0 ++ back) n = List.replicate (min n gap) 0 ++
      resizeZero back (n - gap) := by
  rw [resizeZero_append, List.take_replicate, List.length_replicate]

theorem resizeZero_within {data : Bytes} {n : Nat} (within : n ≤ data.length) :
    resizeZero data n = data.take n := by
  rw [resizeZero, Nat.sub_eq_zero_of_le within, List.replicate_zero, List.append_nil]

/-- Filling a buffer from one extent and then from those behind it. -/
theorem resizeZero_extent (e : Extent) (es : List Extent) (left : Nat) :
    resizeZero (e.data ++ render e.end es) left =
      e.data.take left ++ resizeZero (render (e.offset + (e.data.take left).length) es)
        (left - (e.data.take left).length) := by
  rw [resizeZero_append, List.length_take]
  congr 1
  rcases Nat.le_total left e.data.length with short | long
  · rw [Nat.min_eq_left short, Nat.sub_self, Nat.sub_eq_zero_of_le short]
    simp only [resizeZero, List.take_zero, Nat.zero_sub, List.replicate_zero, List.append_nil]
  · rw [Nat.min_eq_right long]
    rfl

/-- The loop of `read`, from a position in front of every extent that is left. -/
theorem readExtents_render {es : List Extent} {start : Nat} (apart : ApartFrom start es)
    (words : ∀ e ∈ es, e.end < 2 ^ 64) (left : Nat) (out : Bytes) :
    readExtents es left start out = .ok (out ++ resizeZero (render start es) left) := by
  induction es generalizing start left out with
  | nil => simp [readExtents, render, resizeZero]
  | cons e es ih =>
      have rest : ∀ e ∈ es, e.end < 2 ^ 64 :=
        fun e member => words e (List.mem_cons_of_mem _ member)
      have first := apart.2 e List.mem_cons_self
      -- what one extent gives stays in front of the extents behind it
      have follow : ∀ n out, readExtents es (n - (e.data.take n).length)
          (e.offset + (e.data.take n).length) out =
          .ok (out ++ resizeZero (render (e.offset + (e.data.take n).length) es)
            (n - (e.data.take n).length)) := by
        intro n out
        have taken : (e.data.take n).length ≤ e.data.length := List.length_take_le' n e.data
        exact ih (apart.tail.weaken (Nat.add_le_add_left taken _)) rest _ _
      have word : ∀ n, checkWord (e.offset + (e.data.take n).length) =
          .ok (e.offset + (e.data.take n).length) := by
        intro n
        have taken : (e.data.take n).length ≤ e.data.length := List.length_take_le' n e.data
        have bound : e.offset + e.data.length < 2 ^ 64 := words e List.mem_cons_self
        exact if_pos (by omega)
      simp only [readExtents, render, List.append_assoc]
      rw [resizeZero_zeroes, resizeZero_extent]
      split
      · next reached =>
          obtain rfl : e.offset = start := by omega
          simp only [Nat.sub_self, Nat.not_lt_zero, gt_iff_lt, if_false, List.drop_zero]
          rw [word]
          refine (follow left _).trans ?_
          simp only [Nat.min_zero, List.replicate_zero, List.nil_append, Nat.sub_zero,
            List.append_assoc]
      · next ahead =>
          split
          · next short =>
              -- the gap takes the rest of the buffer
              rw [Nat.sub_eq_zero_of_le short.le, Nat.min_eq_left short.le]
              simp [resizeZero]
          · next reaches =>
              rw [word]
              refine (follow (left - (e.offset - start)) _).trans ?_
              rw [Nat.min_eq_right (by omega)]
              simp only [List.append_assoc]

theorem render_append (start : Nat) (front : List Extent) (e : Extent) (back : List Extent) :
    render start (front ++ e :: back) = render start (front ++ [e]) ++ render e.end back := by
  induction front generalizing start with
  | nil => simp [render]
  | cons first front ih => simp only [List.cons_append, render, ih, List.append_assoc]

theorem render_concat (start : Nat) (front : List Extent) (e : Extent) (data : Bytes) :
    render start (front ++ [{ e with data }]) = render start (front ++ [{ e with data := [] }]) ++
      data := by
  induction front generalizing start with
  | nil => simp [render]
  | cons first front ih => simp only [List.cons_append, render, ih, List.append_assoc]

/-- The data of an extent stands at its offset, behind the extents in front of it and a gap. -/
theorem render_last {start : Nat} {front : List Extent} {e : Extent}
    (apart : ApartFrom start (front ++ [e])) :
    ∃ gap, render start (front ++ [e]) = render start front ++ List.replicate gap 0 ++ e.data ∧
      (render start front ++ List.replicate gap 0).length = e.offset - start := by
  induction front generalizing start with
  | nil => exact ⟨e.offset - start, by simp [render], by simp [render]⟩
  | cons first front ih =>
      have behind := apart.2 first List.mem_cons_self
      have last : first.end ≤ e.offset := apart.tail.2 e (by simp)
      obtain ⟨gap, split, len⟩ := ih apart.tail
      refine ⟨gap, ?_, ?_⟩
      · simp only [List.cons_append, render, split, List.append_assoc]
      · simp only [render, List.length_append, List.length_replicate, Extent.end] at len last ⊢
        omega

theorem render_drop {start : Nat} {es : List Extent} {n : Nat}
    (behind : ∀ e ∈ es, start + n ≤ e.offset) :
    (render start es).drop n = render (start + n) es := by
  cases es with
  | nil => simp [render]
  | cons e es =>
      have first := behind e List.mem_cons_self
      simp only [render, List.append_assoc]
      rw [List.drop_append_of_le_length (by rw [List.length_replicate]; omega), List.drop_replicate,
        Nat.sub_sub]

/-! ### Reads -/

/-- Extents in order, all within the range of an offset. -/
structure Orderly (f : BlockFile) : Prop where
  apart : Apart f.extents
  words : ∀ e ∈ f.extents, e.end < 2 ^ 64

theorem Orderly.from_zero {f : BlockFile} (orderly : Orderly f) : ApartFrom 0 f.extents :=
  ⟨orderly.apart, fun e _ => Nat.zero_le e.offset⟩

theorem ApartFrom.front {start : Nat} {front : List Extent} {e : Extent} {back : List Extent}
    (apart : ApartFrom start (front ++ e :: back)) : ApartFrom start (front ++ [e]) := by
  rw [List.append_cons] at apart
  exact ⟨(List.pairwise_append.mp apart.1).1,
    fun x member => apart.2 x (List.mem_append_left _ member)⟩

theorem ApartFrom.back {start : Nat} {front : List Extent} {e : Extent} {back : List Extent}
    (apart : ApartFrom start (front ++ e :: back)) : ApartFrom e.end back := by
  obtain ⟨behind, rest⟩ := List.pairwise_cons.mp (List.pairwise_append.mp apart.1).2.1
  exact ⟨rest, fun next member => (behind next member).2⟩

theorem content_split {f : BlockFile} (orderly : Orderly f) {front : List Extent} {e : Extent}
    {back : List Extent} (split : f.extents = front ++ e :: back) :
    ∃ ahead gap, f.content = ahead ++ (e.data ++ render e.end back) ∧ ahead.length = e.offset ∧
      ahead = render 0 front ++ List.replicate gap 0 := by
  have apart := orderly.from_zero
  rw [split] at apart
  obtain ⟨gap, same, len⟩ := render_last apart.front
  refine ⟨render 0 front ++ List.replicate gap 0, gap, ?_, len, rfl⟩
  rw [content, split, render_append, same, List.append_assoc]

theorem size_content {f : BlockFile} (orderly : Orderly f) : f.size = .ok f.content.length := by
  unfold size
  rcases List.eq_nil_or_concat' f.extents with none | ⟨front, e, split⟩
  · rw [content, none]
    rfl
  · obtain ⟨ahead, _, same, len, _⟩ := content_split orderly split
    have word := orderly.words e (by rw [split]; simp)
    rw [split, List.getLast?_concat, same]
    simp only [render, List.append_nil, List.length_append, len]
    exact if_pos word

/-- Extents in order begin no earlier than at their index. -/
theorem Apart.length_le {front : List Extent} {e : Extent} {back : List Extent}
    (apart : Apart (front ++ e :: back)) : front.length ≤ e.offset := by
  suffices shifted : ∀ start, (∀ x ∈ front, start ≤ x.offset) → start ≤ e.offset →
      start + front.length ≤ e.offset by
    simpa using shifted 0 (fun x _ => Nat.zero_le _) (Nat.zero_le _)
  induction front with
  | nil =>
      intro start _ reached
      exact reached
  | cons first front ih =>
      intro start behind reached
      obtain ⟨next, rest⟩ := List.pairwise_cons.mp apart
      have later := ih rest (start + 1) ?_ ?_
      · rw [List.length_cons]
        omega
      · intro x member
        have low := behind first List.mem_cons_self
        have high := (next x (by simp [member])).1
        omega
      · have low := behind first List.mem_cons_self
        have high := (next e (by simp)).1
        omega

/-- Where a read begins: in front of every extent, or at the last that starts no later. -/
inductive ReadFrom (f : BlockFile) (offset : Nat) : Except Crash (List Extent) → Prop where
  | ahead (above : ∀ e ∈ f.extents, offset < e.offset) : ReadFrom f offset (.ok f.extents)
  | inside (front : List Extent) (e : Extent) (back : List Extent)
      (split : f.extents = front ++ e :: back) (starts : e.offset ≤ offset)
      (above : ∀ x ∈ back, offset < x.offset) :
      ReadFrom f offset (.ok (e :: back))

theorem getReadExtents_from {f : BlockFile} (orderly : Orderly f) (offset : Nat) :
    ReadFrom f offset (f.getReadExtents offset) := by
  have located := searchExtent_located orderly.apart offset .low
  unfold getReadExtents
  generalize f.searchExtent offset .low = found at located ⊢
  cases located with
  | found front e back split starts =>
      have apart := orderly.apart
      rw [split] at apart
      have behind := (List.pairwise_cons.mp (List.pairwise_append.mp apart).2.1).1
      have here : f.extents.drop front.length = e :: back := by rw [split, List.drop_left]
      simp only [here]
      refine .inside front e back split starts.le ?_
      intro x member
      exact starts ▸ (behind x member).1
  | between front back split below above =>
      rcases List.eq_nil_or_concat' front with rfl | ⟨front, e, rfl⟩
      · have all : back = f.extents := by simpa using split.symm
        subst all
        have done := ReadFrom.ahead above
        simpa [size_content orderly] using done
      · rw [List.append_assoc, List.singleton_append] at split
        have apart := orderly.apart
        rw [split] at apart
        have index := apart.length_le
        obtain ⟨ahead, _, same, len, _⟩ := content_split orderly split
        have room : front.length ≤ f.content.length := by
          rw [same, List.length_append]
          omega
        have here : f.extents.drop front.length = e :: back := by rw [split, List.drop_left]
        have done := ReadFrom.inside front e back split (below e (by simp)).le above
        have low : ¬ ((front.length : Int) < -1) := by omega
        have fits : ¬ f.content.length < front.length := by omega
        simp only [add_sub_cancel_right, List.length_append, List.length_singleton, Nat.cast_add,
          Nat.cast_one, if_true, Int.natCast_nonneg, max_eq_left, Int.toNat_natCast,
            size_content orderly, here, low, fits,
          gt_iff_lt, if_false, Except.ok_bind]
        exact done

/-- No two extents leave the offset in the gap between them. -/
def NoGap (f : BlockFile) (offset : Nat) : Prop :=
  ∀ front e back, f.extents = front ++ e :: back → e.end < offset → ∃ next ∈ back,
    next.offset ≤ offset

/-- The loop begins in the middle of its first extent. -/
theorem readExtents_inside {e : Extent} {back : List Extent} {offset : Nat}
    (apart : ApartFrom e.end back) (words : ∀ x ∈ e :: back, x.end < 2 ^ 64)
    (starts : e.offset ≤ offset) (ends : offset ≤ e.end) (above : ∀ x ∈ back, offset < x.offset)
    (left : Nat) :
    readExtents (e :: back) left offset [] =
      .ok (resizeZero ((e.data ++ render e.end back).drop (offset - e.offset)) left) := by
  -- as if the extent began at the offset
  let shifted : Extent := ⟨offset, e.data.drop (offset - e.offset)⟩
  have inside : offset - e.offset ≤ e.data.length := by
    simp only [Extent.end] at ends
    omega
  have same : readExtents (e :: back) left offset [] =
      readExtents (shifted :: back) left offset [] := by
    simp only [readExtents, shifted, starts, le_refl, if_true, gt_iff_lt, Nat.not_lt.mpr inside,
      if_false, Nat.sub_self, Nat.not_lt_zero, List.drop_zero]
  have ending : shifted.end = e.end := by
    simp only [shifted, Extent.end, List.length_drop] at ends ⊢
    omega
  have whole : ApartFrom offset (shifted :: back) := by
    refine ⟨List.pairwise_cons.mpr ⟨?_, apart.1⟩, ?_⟩
    · intro x member
      exact ⟨above x member, ending ▸ apart.2 x member⟩
    · intro x member
      rcases List.mem_cons.mp member with rfl | later
      · exact le_rfl
      · exact (above x later).le
  have bounded : ∀ x ∈ shifted :: back, x.end < 2 ^ 64 := by
    intro x member
    rcases List.mem_cons.mp member with rfl | later
    · exact ending ▸ words e List.mem_cons_self
    · exact words x (List.mem_cons_of_mem _ later)
  rw [same, readExtents_render whole bounded]
  simp only [render, ending, List.nil_append, shifted, Nat.sub_self, List.replicate_zero]
  rw [List.drop_append_of_le_length inside]

/-- The bytes from an offset on fill the buffer. -/
theorem readExtents_content {f : BlockFile} (orderly : Orderly f) {offset : Nat} {es : List Extent}
    (begins : ReadFrom f offset (.ok es)) (gapless : f.NoGap offset) (left : Nat) :
    readExtents es left offset [] = .ok (resizeZero (f.content.drop offset) left) := by
  cases begins with
  | ahead above =>
      have apart : ApartFrom offset f.extents :=
        ⟨orderly.apart, fun e member => (above e member).le⟩
      have rest : f.content.drop offset = render offset f.extents := by
        rw [content, render_drop (by simpa using apart.2), Nat.zero_add]
      rw [readExtents_render apart orderly.words, rest, List.nil_append]
  | inside front e back split starts above =>
      have ends : offset ≤ e.end := by
        by_contra past
        obtain ⟨next, member, early⟩ := gapless front e back split (by omega)
        exact absurd (above next member) (by omega)
      have apart := orderly.from_zero
      rw [split] at apart
      have words : ∀ x ∈ e :: back, x.end < 2 ^ 64 := by
        intro x member
        exact orderly.words x (by rw [split]; exact List.mem_append_right _ member)
      obtain ⟨ahead, _, same, len, _⟩ := content_split orderly split
      have rest : (ahead ++ (e.data ++ render e.end back)).drop offset =
          (e.data ++ render e.end back).drop (offset - e.offset) := by
        rw [List.drop_append, len, List.drop_of_length_le (len ▸ starts), List.nil_append]
      rw [readExtents_inside apart.back words starts ends above, same, rest]

/-- A read returns what the extents spell out, up to the end of the file. -/
theorem read_content {f : BlockFile} (orderly : Orderly f) (buf : Bytes) {offset : Nat}
    (word : offset + buf.length < 2 ^ 64) (within : offset ≤ f.content.length)
    (gapless : f.NoGap offset) :
    f.read buf offset =
      .ok (min buf.length (f.content.length - offset),
        (f.content.drop offset).take buf.length ++ buf.drop (f.content.length - offset)) := by
  have begins := getReadExtents_from orderly offset
  obtain ⟨es, got⟩ : ∃ es, f.getReadExtents offset = .ok es := by
    generalize f.getReadExtents offset = r at begins
    cases begins with
    | ahead above => exact ⟨_, rfl⟩
    | inside front e back split starts above => exact ⟨_, rfl⟩
  rw [got] at begins
  have returned : (if offset + buf.length > f.content.length then checkedSub f.content.length offset
      else .ok buf.length) = .ok (min buf.length (f.content.length - offset)) := by
    simp only [checkedSub, within, if_true]
    split
    · rw [Nat.min_eq_right (by omega)]
    · rw [Nat.min_eq_left (by omega)]
  unfold read
  simp only [checkWord, word, if_true, Except.ok_bind, size_content orderly, returned, got,
    readExtents_content orderly begins gapless]
  have rest : (f.content.drop offset).length = f.content.length - offset := List.length_drop
  rw [resizeZero_within (by omega)]
  rcases Nat.le_total buf.length (f.content.length - offset) with short | long
  · rw [Nat.min_eq_left short, List.drop_of_length_le (le_refl _), List.drop_of_length_le short]
    rfl
  · rw [Nat.min_eq_right long, List.take_of_length_le (by omega), List.take_of_length_le (by omega)]
    rfl

/-- Reading past the end panics. -/
theorem read_past {f : BlockFile} {size : Nat} (ending : f.size = .ok size) (buf : Bytes)
    {offset : Nat} (past : size < offset) : f.read buf offset = .error .panic := by
  unfold read
  simp only [checkWord]
  split
  · simp only [Except.ok_bind, ending, checkedSub]
    rw [if_pos (by omega), if_neg (by omega)]
    rfl
  · rfl

/-! ### Truncation -/

theorem render_take {start : Nat} {es : List Extent} {n : Nat}
    (behind : ∀ e ∈ es, start + n ≤ e.offset) :
    ∃ gap, (render start es).take n = List.replicate gap 0 := by
  cases es with
  | nil => exact ⟨0, by simp [render]⟩
  | cons e es =>
      have first := behind e List.mem_cons_self
      refine ⟨n, ?_⟩
      simp only [render, List.append_assoc]
      rw [List.take_append_of_le_length (by rw [List.length_replicate]; omega), List.take_replicate,
        Nat.min_eq_left (by omega)]

/-- Truncating keeps what is in front of the size, but for zeroes where it cuts a gap. -/
theorem truncate_content {f : BlockFile} (orderly : Orderly f) (size : Nat) :
    ∃ f' gap, f.truncate size = .ok f' ∧ f.content.take size =
      f'.content ++ List.replicate gap 0 := by
  have located := searchExtent_located orderly.apart size .low
  unfold truncate
  generalize f.searchExtent size .low = found at located ⊢
  cases located with
  | found front e back split starts =>
      obtain ⟨ahead, gap, same, len, ends⟩ := content_split orderly split
      refine ⟨_, gap, rfl, ?_⟩
      rw [same, ← starts, ← len, List.take_left, ends, content]
      simp only [split, List.take_left]
  | between front back split below above =>
      rcases List.eq_nil_or_concat' front with rfl | ⟨front, e, rfl⟩
      · have behind : ∀ e ∈ back, 0 + size ≤ e.offset := by
          intro e member
          rw [Nat.zero_add]
          exact (above e member).le
        obtain ⟨gap, zeroes⟩ := render_take behind
        refine ⟨_, gap, rfl, ?_⟩
        rw [content, split, List.nil_append, zeroes]
        rfl
      · rw [List.append_assoc, List.singleton_append] at split
        obtain ⟨ahead, _, same, len, ends⟩ := content_split orderly split
        have starts := below e (by simp)
        have index : ((front ++ [e]).length : Int) - 1 = front.length := by simp
        have here : f.extents[front.length]? = some e := by
          rw [split, List.getElem?_append_right le_rfl, Nat.sub_self, List.getElem?_cons_zero]
        have positive : ¬ (front.length : Int) = -1 := by omega
        have cut : checkedSub size e.offset = .ok (size - e.offset) := if_pos starts.le
        have kept : f.extents.take front.length = front := by rw [split, List.take_left]
        have behind : ∀ x ∈ back, e.end + (size - e.offset - e.data.length) ≤ x.offset := by
          intro x member
          have apart := orderly.from_zero
          rw [split] at apart
          have past : e.offset + e.data.length ≤ x.offset := apart.back.2 x member
          have later := above x member
          simp only [Extent.end]
          omega
        obtain ⟨gap, zeroes⟩ := render_take behind
        simp only [if_true, index, positive, if_false, Int.toNat_natCast, here, cut, Except.ok_bind,
          kept]
        refine ⟨_, gap, rfl, ?_⟩
        have front_eq : render 0 (front ++ [{ e with data := [] }]) = ahead := by
          have both : render 0 (front ++ [{ e with data := [] }]) ++ (e.data ++ render e.end back) =
              ahead ++ (e.data ++ render e.end back) := by
            rw [← List.append_assoc, ← render_concat, ← render_append, ← split, ← content, same]
          exact List.append_cancel_right both
        rw [same, content, render_concat, front_eq, List.take_append,
          List.take_of_length_le (by omega), List.take_append, len, zeroes, List.append_assoc]

theorem truncate_content_two :
    ∃ (f f' : BlockFile) (gap : Nat), f.content = [1, 2, 3] ∧ f.truncate 2 = .ok f' ∧
      f.content.take 2 = f'.content ++ List.replicate gap 0 := by
  have orderly : Orderly ⟨[⟨0, [1, 2, 3]⟩], 4096, 8191, clearMask 0x7FFFFFFF 8191⟩ := by
    refine ⟨List.pairwise_singleton _ _, ?_⟩
    intro e member
    rw [List.mem_singleton.mp member]
    decide
  obtain ⟨f', gap, cut, same⟩ := truncate_content orderly 2
  exact ⟨_, f', gap, rfl, cut, same⟩

end ProxmoxFuse.BlockFile
