import ProxmoxFuse.SparseFile

/-!
# Writes to the sparse file

Writes that stay above the first block ever written keep the file in one extent
and act on its content as on a flat file; those that would exceed the greatest
extent never return, and one in front of everything hides what was there.
-/
namespace ProxmoxFuse.BlockFile

/-- The sizes `BlockFile::new` derives from a block size. -/
structure Geometry (f : BlockFile) : Prop where
  mask : ∃ j ≤ 30, f.blockMask = 2 ^ j - 1
  max : f.maxExtentSize = clearMask 0x7FFFFFFF f.blockMask

theorem clearMask_pow (n j : Nat) : clearMask n (2 ^ j - 1) = n / 2 ^ j * 2 ^ j := by
  have parts := Nat.div_add_mod' n (2 ^ j)
  rw [clearMask, Nat.and_two_pow_sub_one_eq_mod]
  omega

theorem clearMask_le (n mask : Nat) : clearMask n mask ≤ n := Nat.sub_le _ _

/-- Rounding up to a block keeps a length on its side of the maximum, which is whole blocks. -/
theorem Geometry.roundUp_gt {f : BlockFile} (g : Geometry f) (n : Nat) :
    roundUp n f.blockMask > f.maxExtentSize ↔ n > f.maxExtentSize := by
  obtain ⟨j, _, mask⟩ := g.mask
  constructor
  · intro above
    by_contra below
    rw [g.max, mask, clearMask_pow] at below
    rw [roundUp, g.max, mask, clearMask_pow, clearMask_pow] at above
    have pos : 0 < 2 ^ j := Nat.two_pow_pos j
    have blocks : (n + (2 ^ j - 1)) / 2 ^ j ≤ 0x7FFFFFFF / 2 ^ j := by
      rw [Nat.div_le_iff_le_mul_add_pred pos, Nat.mul_comm]
      omega
    exact absurd (Nat.mul_le_mul_right (2 ^ j) blocks) (by omega)
  · intro above
    exact Nat.lt_of_lt_of_le above (le_roundUp n f.blockMask)

theorem Geometry.roundUp_le {f : BlockFile} (g : Geometry f) {n : Nat}
    (within : n ≤ f.maxExtentSize) :
    ¬ roundUp n f.blockMask > f.maxExtentSize :=
  fun above => absurd ((g.roundUp_gt n).mp above) (Nat.not_lt.mpr within)

theorem Geometry.mask_lt {f : BlockFile} (g : Geometry f) : f.blockMask < 2 ^ 30 := by
  obtain ⟨j, small, mask⟩ := g.mask
  have bound : 2 ^ j ≤ 2 ^ 30 := Nat.pow_le_pow_right (by decide) small
  omega

theorem Geometry.max_lt {f : BlockFile} (g : Geometry f) : f.maxExtentSize < 2 ^ 31 := by
  have bound := clearMask_le 0x7FFFFFFF f.blockMask
  rw [g.max]
  omega

theorem Geometry.max_pos {f : BlockFile} (g : Geometry f) : 0 < f.maxExtentSize := by
  have masked : 0x7FFFFFFF &&& f.blockMask ≤ f.blockMask := Nat.and_le_right
  have small := g.mask_lt
  rw [g.max, clearMask]
  omega

theorem checkWord_ok {n : Nat} (word : n < 2 ^ 64) : checkWord n = .ok n := if_pos word

theorem checkWord_eq {n m : Nat} (same : checkWord n = .ok m) : m = n ∧ n < 2 ^ 64 := by
  simp only [checkWord] at same
  split at same
  · next word =>
      cases same
      exact ⟨rfl, word⟩
  · cases same

theorem checkedSub_eq {a b c : Nat} (same : checkedSub a b = .ok c) : c = a - b ∧ b ≤ a := by
  simp only [checkedSub] at same
  split at same
  · next fits =>
      cases same
      exact ⟨rfl, fits⟩
  · cases same

theorem searchExtent_nil {f : BlockFile} (none : f.extents = []) (offset : Nat) :
    f.searchExtent offset .low = .error (-1) := by
  simp [searchExtent, none, searchLoop]

/-- In a file of one extent, what lies behind its start is found in it. -/
theorem searchExtent_single {f : BlockFile} {e : Extent} (one : f.extents = [e]) {offset : Nat}
    (behind : e.offset ≤ offset) :
    f.searchExtent offset .low = .ok 0 ∨ f.searchExtent offset .low = .error 0 := by
  have apart : Apart f.extents := by
    rw [one]
    exact List.pairwise_singleton _ _
  have located := searchExtent_located apart offset .low
  generalize f.searchExtent offset .low = found at located ⊢
  cases located with
  | found front x back split starts =>
      have len := congrArg List.length (one.symm.trans split)
      simp only [List.length_nil, List.length_append, List.length_cons] at len
      exact .inl (congrArg _ (by omega))
  | between front back split below above =>
      rw [one] at split
      cases front with
      | nil => exact absurd (above e (by rw [← List.nil_append back, ← split]; simp)) (by omega)
      | cons first front =>
          have len := congrArg List.length split
          simp only [List.length_nil, List.length_append, List.length_cons] at len
          refine .inr (congrArg _ ?_)
          simp only [if_true, List.length_cons]
          omega

/-- Resizing to the end of what is written and copying it there. -/
theorem copyAt_resizeZero {data buf : Bytes} {inOfs : Nat}
    (short : data.length ≤ inOfs + buf.length)
    (fits : inOfs + buf.length ≤ (resizeZero data (inOfs + buf.length)).length) :
    copyAt (resizeZero data (inOfs + buf.length)) inOfs buf fits =
      Overlay.write 0 data inOfs buf := by
  have len := resizeZero_length data (inOfs + buf.length)
  have front : (resizeZero data (inOfs + buf.length)).take inOfs = resizeZero data inOfs := by
    simp only [resizeZero, List.take_append, List.length_take, List.take_take, List.take_replicate]
    congr 2
    · omega
    · omega
  rw [copyAt, Overlay.write_past 0 short, List.drop_of_length_le len.le, List.append_nil, front,
    resizeZero]

/-- What a write does to the bytes of one extent. -/
theorem writeWithin_single (f : BlockFile) (e : Extent) (buf : Bytes) (inOfs : Nat)
    (word : e.offset + (inOfs + buf.length) < 2 ^ 64) :
    f.writeWithin [] e [] buf inOfs =
      .ok { f with extents := [{ e with data := Overlay.write 0 e.data inOfs buf }] } := by
  simp only [writeWithin]
  split
  · next fits =>
      have within : inOfs ≤ e.data.length := by omega
      simp [copyAt, Overlay.write, Nat.sub_eq_zero_of_le within]
  · next short =>
      simp only [List.isEmpty_nil, if_true, moveTrailing]
      rw [copyAt_resizeZero (by omega)]
      have len := Overlay.write_length 0 e.data inOfs buf
      rw [checkWord_ok (by simp only [Extent.end, len]; omega)]
      rfl

theorem write_first {f : BlockFile} (g : Geometry f) (none : f.extents = []) {buf : Bytes}
    {offset : Nat} (fits : buf.length ≤ f.maxExtentSize) (word : offset + buf.length < 2 ^ 64)
    (depth : Nat) :
    f.write (depth + 1) buf offset =
      .ok { f with extents := [{ offset := clearMask offset f.blockMask
                                 data :=
                               List.replicate (offset - clearMask offset f.blockMask) 0 ++ buf }]
                                 } := by
  have mask := g.mask_lt
  have max := g.max_lt
  unfold write
  rw [checkWord_ok (by omega), searchExtent_nil none, checkWord_ok word]
  simp only [Except.ok_bind, g.roundUp_le fits, if_false, if_true, none]
  rfl

/-- One call of `write` on a file of one extent, for a buffer that is no longer than an extent may
be. -/
theorem write_one {f : BlockFile} (g : Geometry f) {e : Extent} (one : f.extents = [e])
    {buf : Bytes} {offset : Nat} (behind : e.offset ≤ offset) (small : buf.length ≤ f.maxExtentSize)
    (depth : Nat) :
    f.write (depth + 1) buf offset = (do
      let inEnd ← checkWord (offset - e.offset + buf.length)
      let _ ← checkWord (inEnd + f.blockMask)
      if roundUp inEnd f.blockMask > f.maxExtentSize then
        let possible ← checkedSub f.maxExtentSize (offset - e.offset)
        if possible > buf.length then .error .panic
        let f ← f.write depth (buf.take possible) offset
        f.write depth (buf.drop possible) (← checkWord (offset + possible))
      else f.writeWithin [] e [] buf (offset - e.offset)) := by
  have mask := g.mask_lt
  have max := g.max_lt
  have whole := g.roundUp_le small
  have start : checkedSub offset e.offset = .ok (offset - e.offset) := if_pos behind
  conv => lhs; unfold write
  rw [checkWord_ok (by omega)]
  rcases searchExtent_single one behind with found | found
  · rw [found]
    simp only [Except.ok_bind, whole, if_false, one, List.drop_zero, List.take_zero, start,
      reduceCtorEq]
  · have other : (Except.error 0 : Except Int Nat) ≠ .error (-1) := by decide
    rw [found]
    simp only [Except.ok_bind, whole, if_false, one, Int.toNat_zero, List.drop_zero, List.take_zero,
      start, other]

theorem write_single {f : BlockFile} (g : Geometry f) {e : Extent} (one : f.extents = [e])
    {buf : Bytes} {offset : Nat} (behind : e.offset ≤ offset)
    (fits : offset - e.offset + buf.length ≤ f.maxExtentSize) (word : offset + buf.length < 2 ^ 64)
    (depth : Nat) :
    f.write (depth + 1) buf offset =
      .ok { f with extents := [{ e with data := Overlay.write 0 e.data (offset - e.offset) buf }]
        } := by
  have mask := g.mask_lt
  have max := g.max_lt
  rw [write_one g one behind (by omega), checkWord_ok (by omega), Except.ok_bind,
    checkWord_ok (by omega), Except.ok_bind, if_neg (g.roundUp_le fits)]
  exact writeWithin_single f e buf (offset - e.offset) (by omega)

/-! ### Writes that never return -/

/-- One call either ends there or leaves the one extent where it is. -/
theorem writeWithin_keeps (f : BlockFile) (e : Extent) (buf : Bytes) (inOfs : Nat) :
    Fails (f.writeWithin [] e [] buf inOfs) ∨
      ∃ data, f.writeWithin [] e [] buf inOfs = .ok { f with extents := [{ e with data }] } := by
  simp only [writeWithin]
  split
  · exact .inr ⟨_, rfl⟩
  · simp only [List.isEmpty_nil, if_true, moveTrailing, checkWord]
    split
    · exact .inr ⟨_, rfl⟩
    · exact .inl ⟨_, rfl⟩

/-- A write that fits ends there or leaves the one extent where it is. -/
theorem write_keeps {f : BlockFile} (g : Geometry f) {e : Extent} (one : f.extents = [e])
    {buf : Bytes} {offset : Nat} (behind : e.offset ≤ offset)
    (fits : offset - e.offset + buf.length ≤ f.maxExtentSize) (depth : Nat) :
    Fails (f.write depth buf offset) ∨
      ∃ data, f.write depth buf offset = .ok { f with extents := [{ e with data }] } := by
  have mask := g.mask_lt
  have max := g.max_lt
  cases depth with
  | zero => exact .inl ⟨_, rfl⟩
  | succ depth =>
      rw [write_one g one behind (by omega), checkWord_ok (by omega), Except.ok_bind,
        checkWord_ok (by omega), Except.ok_bind, if_neg (g.roundUp_le fits)]
      exact writeWithin_keeps f e buf (offset - e.offset)

theorem Geometry.keep {f : BlockFile} (g : Geometry f) (es : List Extent) :
    Geometry { f with extents := es } :=
  ⟨g.mask, g.max⟩

/-- The first chunk of a buffer that is too long for one extent. -/
theorem write_chunks {f : BlockFile} (g : Geometry f) {buf : Bytes} {offset : Nat}
    (long : f.maxExtentSize < buf.length) (depth : Nat) :
    f.write (depth + 1) buf offset = checkWord (buf.length + f.blockMask) >>= fun _ =>
      writeChunks (write depth) f.maxExtentSize buf.length buf f offset := by
  have above := (g.roundUp_gt buf.length).mpr long
  have positive := g.max_pos
  conv => lhs; unfold write
  simp only [above, if_true, Nat.pos_iff_ne_zero.mp positive, if_false]

/-- A chunked write fails with its first chunk, or with those behind it. -/
theorem writeChunks_fails {write : BlockFile → Bytes → Nat → Except Crash BlockFile}
    {max rounds : Nat} {buf : Bytes} {f : BlockFile} {offset : Nat} (some : buf ≠ [])
    (first : ∀ f', write f (buf.take max) offset = .ok f' →
      Fails (writeChunks write max rounds (buf.drop max) f' (offset + (buf.take max).length))) :
    Fails (writeChunks write max (rounds + 1) buf f offset) := by
  have nonempty : buf.isEmpty = false := by
    cases buf with
    | nil => exact absurd rfl some
    | cons b buf => rfl
  simp only [writeChunks, nonempty, Bool.false_eq_true, if_false]
  refine Fails.bind fun f' written => Fails.bind fun next word => ?_
  rw [(checkWord_eq word).1]
  exact first f' written

theorem exists_rounds {buf : Bytes} (some : buf ≠ []) : ∃ rounds, buf.length = rounds + 1 :=
  Nat.exists_eq_succ_of_ne_zero fun empty => some (List.length_eq_zero_iff.mp empty)

/-- Behind a full extent `write` calls itself with the same arguments. -/
theorem write_stuck {f : BlockFile} (g : Geometry f) {e : Extent} (one : f.extents = [e])
    {buf : Bytes} {offset : Nat} (full : e.offset + f.maxExtentSize ≤ offset) (some : buf ≠ [])
    (depth : Nat) :
    Fails (f.write depth buf offset) := by
  induction depth generalizing f e buf with
  | zero => exact ⟨_, rfl⟩
  | succ depth ih =>
      have positive := g.max_pos
      have length := List.length_pos_iff.mpr some
      rcases Nat.lt_or_ge f.maxExtentSize buf.length with long | small
      · obtain ⟨rounds, len⟩ := exists_rounds some
        rw [write_chunks g long]
        refine Fails.bind fun _ _ => ?_
        rw [len]
        refine writeChunks_fails some fun f' written => absurd written ?_
        refine (ih g one full ?_).ne_ok f'
        intro none
        have short := congrArg List.length none
        rw [List.length_take, List.length_nil] at short
        omega
      · rw [write_one g one (by omega) small]
        refine Fails.bind fun inEnd within => Fails.bind fun _ _ => ?_
        obtain ⟨rfl, _⟩ := checkWord_eq within
        rw [if_pos ((g.roundUp_gt _).mpr (by omega))]
        refine Fails.bind fun possible room => ?_
        obtain ⟨rfl, reach⟩ := checkedSub_eq room
        have exhausted : f.maxExtentSize - (offset - e.offset) = 0 := by omega
        rw [exhausted, if_neg (Nat.not_lt_zero _), List.take_zero, List.drop_zero]
        refine Fails.bind fun f' written => Fails.bind fun next word => ?_
        rw [(checkWord_eq word).1]
        have fits : offset - e.offset + ([] : Bytes).length ≤ f.maxExtentSize := by
          rw [List.length_nil]
          omega
        rcases write_keeps g one (by omega) fits depth with failed | ⟨data, ended⟩
        · exact absurd written (failed.ne_ok f')
        · rw [ended] at written
          cases written
          exact ih (g.keep _) rfl full some

/-- A file as runs above the first block leave it: one extent at most. -/
structure Plain (f : BlockFile) : Prop where
  geometry : Geometry f
  single : f.extents.length ≤ 1
  words : ∀ e ∈ f.extents, e.end < 2 ^ 64

theorem Plain.cases {f : BlockFile} (plain : Plain f) : f.extents = [] ∨ ∃ e, f.extents = [e] := by
  have single := plain.single
  rcases same : f.extents with _ | ⟨e, _ | ⟨next, rest⟩⟩
  · exact .inl rfl
  · exact .inr ⟨e, rfl⟩
  · rw [same, List.length_cons, List.length_cons] at single
    omega

/-- What fits behind the start of the extent there is or will be. -/
structure Takes (f : BlockFile) (offset len : Nat) : Prop where
  word : offset + len < 2 ^ 64
  fits : len ≤ f.maxExtentSize
  within : ∀ e ∈ f.extents, offset - e.offset + len ≤ f.maxExtentSize

/-- A write that does not fit an extent next to what is in it never returns. -/
theorem write_overlong {f : BlockFile} (g : Geometry f) {e : Extent} (one : f.extents = [e])
    {buf : Bytes} {offset : Nat} (behind : e.offset ≤ offset)
    (long : f.maxExtentSize < offset - e.offset + buf.length) (small : buf.length ≤ f.maxExtentSize)
    (depth : Nat) : Fails (f.write depth buf offset) := by
  cases depth with
  | zero => exact ⟨_, rfl⟩
  | succ depth =>
      rw [write_one g one behind small]
      refine Fails.bind fun inEnd within => Fails.bind fun _ _ => ?_
      obtain ⟨rfl, _⟩ := checkWord_eq within
      rw [if_pos ((g.roundUp_gt _).mpr long)]
      refine Fails.bind fun possible room => ?_
      obtain ⟨rfl, reach⟩ := checkedSub_eq room
      rw [if_neg (by omega)]
      refine Fails.bind fun f' written => Fails.bind fun next word => ?_
      rw [(checkWord_eq word).1]
      have part : (buf.take (f.maxExtentSize - (offset - e.offset))).length =
          f.maxExtentSize - (offset - e.offset) := List.length_take_of_le (by omega)
      rcases write_keeps g one behind (by rw [part]; omega) depth with failed | ⟨data, ended⟩
      · exact absurd written (failed.ne_ok f')
      · rw [ended] at written
        cases written
        refine write_stuck (g.keep _) rfl (by simp only; omega) ?_ depth
        intro none
        have rest := congrArg List.length none
        rw [List.length_drop, List.length_nil] at rest
        omega

theorem write_first_past {f : BlockFile} (g : Geometry f) (none : f.extents = []) {buf : Bytes}
    {offset : Nat} (fits : buf.length ≤ f.maxExtentSize) (past : 2 ^ 64 ≤ offset + buf.length)
    (depth : Nat) :
    Fails (f.write (depth + 1) buf offset) := by
  have mask := g.mask_lt
  have max := g.max_lt
  refine ⟨.panic, ?_⟩
  unfold write
  rw [checkWord_ok (by omega), searchExtent_nil none]
  simp only [Except.ok_bind, g.roundUp_le fits, if_false, if_true, checkWord, Nat.not_lt.mpr past]
  rfl

theorem write_single_past {f : BlockFile} (g : Geometry f) {e : Extent} (one : f.extents = [e])
    (ending : e.end < 2 ^ 64) {buf : Bytes} {offset : Nat} (behind : e.offset ≤ offset)
    (fits : offset - e.offset + buf.length ≤ f.maxExtentSize) (past : 2 ^ 64 ≤ offset + buf.length)
    (depth : Nat) :
    Fails (f.write (depth + 1) buf offset) := by
  have mask := g.mask_lt
  have max := g.max_lt
  have short : ¬ offset - e.offset + buf.length ≤ e.data.length := by
    simp only [Extent.end] at ending
    omega
  rw [write_one g one behind (by omega), checkWord_ok (by omega), Except.ok_bind,
    checkWord_ok (by omega), Except.ok_bind, if_neg (g.roundUp_le fits)]
  simp only [writeWithin, short, dite_false, List.isEmpty_nil, if_true, moveTrailing]
  rw [copyAt_resizeZero (by omega)]
  refine Fails.bind fun stop word => ?_
  have bounded := (checkWord_eq word).2
  simp only [Extent.end, Overlay.write_length] at bounded
  exact absurd bounded (by omega)

/-- A chunk of the greatest size ends there or leaves an extent that begins no later. -/
theorem write_chunk {f : BlockFile} (plain : Plain f) {buf : Bytes} {offset : Nat}
    (behind : ∀ e ∈ f.extents, e.offset ≤ offset) (len : buf.length = f.maxExtentSize)
    (depth : Nat) :
    Fails (f.write depth buf offset) ∨
      ∃ e, f.write depth buf offset = .ok { f with extents := [e] } ∧ e.offset ≤ offset := by
  have g := plain.geometry
  cases depth with
  | zero => exact .inl ⟨_, rfl⟩
  | succ depth =>
      rcases plain.cases with none | ⟨e, one⟩
      · rcases Nat.lt_or_ge (offset + buf.length) (2 ^ 64) with word | past
        · exact .inr ⟨_, write_first g none len.le word depth, clearMask_le _ _⟩
        · exact .inl (write_first_past g none len.le past depth)
      · have starts := behind e (by rw [one]; exact List.mem_singleton_self e)
        rcases Nat.lt_or_ge e.offset offset with inside | front
        · exact .inl (write_overlong g one starts (by omega) len.le _)
        · have fits : offset - e.offset + buf.length ≤ f.maxExtentSize := by omega
          rcases write_keeps g one starts fits (depth + 1) with failed | ⟨data, ended⟩
          · exact .inl failed
          · exact .inr ⟨_, ended, starts⟩

/-- So does one that no extent could hold. -/
theorem write_oversized {f : BlockFile} (plain : Plain f) {buf : Bytes} {offset : Nat}
    (behind : ∀ e ∈ f.extents, e.offset ≤ offset) (long : f.maxExtentSize < buf.length)
    (depth : Nat) :
    Fails (f.write depth buf offset) := by
  have g := plain.geometry
  have positive := g.max_pos
  cases depth with
  | zero => exact ⟨_, rfl⟩
  | succ depth =>
      obtain ⟨rounds, len⟩ : ∃ rounds, buf.length = rounds + 2 := ⟨buf.length - 2, by omega⟩
      have part : (buf.take f.maxExtentSize).length = f.maxExtentSize :=
        List.length_take_of_le long.le
      have some : buf ≠ [] := List.length_pos_iff.mp (by omega)
      rw [write_chunks g long]
      refine Fails.bind fun _ _ => ?_
      rw [len]
      refine writeChunks_fails some fun f' written => ?_
      rcases write_chunk plain behind part depth with failed | ⟨e, ended, starts⟩
      · exact absurd written (failed.ne_ok f')
      · rw [ended] at written
        cases written
        have rest : buf.drop f.maxExtentSize ≠ [] := by
          refine List.length_pos_iff.mp ?_
          rw [List.length_drop]
          omega
        refine writeChunks_fails rest fun f'' written => absurd written ?_
        refine (write_stuck (g.keep _) rfl (by rw [part]; simp only; omega) ?_ depth).ne_ok f''
        refine List.length_pos_iff.mp ?_
        rw [List.length_take, List.length_drop]
        omega

theorem content_nil {f : BlockFile} (none : f.extents = []) : f.content = [] := by
  rw [content, none, render]

theorem content_single {f : BlockFile} {e : Extent} (one : f.extents = [e]) :
    f.content = List.replicate e.offset 0 ++ e.data := by
  rw [content, one]
  simp [render]

/-- A write that fits acts on the content as on a flat file. -/
theorem write_content {f : BlockFile} (plain : Plain f) {buf : Bytes} {offset : Nat}
    (behind : ∀ e ∈ f.extents, e.offset ≤ offset) (takes : f.Takes offset buf.length)
    (depth : Nat) :
    ∃ e, f.write (depth + 1) buf offset = .ok { f with extents := [e] } ∧
      Plain { f with extents := [e] } ∧
      content { f with extents := [e] } = Overlay.write 0 f.content offset buf ∧
      (f.extents = [] ∧ e.offset = clearMask offset f.blockMask ∨ ∃ x ∈ f.extents,
        e.offset = x.offset) := by
  have g := plain.geometry
  have word := takes.word
  rcases plain.cases with none | ⟨x, one⟩
  · have low := clearMask_le offset f.blockMask
    refine ⟨_, write_first g none takes.fits word depth, ⟨g.keep _, le_rfl, ?_⟩, ?_,
      .inl ⟨none, rfl⟩⟩
    · intro e member
      rw [List.mem_singleton.mp member]
      simp only [Extent.end, List.length_append, List.length_replicate]
      omega
    · rw [content_single rfl, content_nil none, Overlay.write_nil, ← List.append_assoc,
        List.replicate_append_replicate]
      congr 2
      simp only
      omega
  · have here : x ∈ f.extents := by rw [one]; exact List.mem_singleton_self x
    have starts := behind x here
    have ending : x.offset + x.data.length < 2 ^ 64 := plain.words x here
    refine ⟨_, write_single g one starts (takes.within x here) word depth, ⟨g.keep _, le_rfl, ?_⟩,
      ?_, .inr ⟨x, here, rfl⟩⟩
    · intro e member
      rw [List.mem_singleton.mp member]
      simp only [Extent.end, Overlay.write_length]
      omega
    · rw [content_single rfl, content_single one, ← Overlay.write_shift]
      congr 1
      simp only
      omega

/-- Above the first block, a write that returned did fit. -/
theorem takes_of_write {f f' : BlockFile} (plain : Plain f) {buf : Bytes} {offset depth : Nat}
    (behind : ∀ e ∈ f.extents, e.offset ≤ offset) (returned : f.write depth buf offset = .ok f') :
    f.Takes offset buf.length := by
  have fits : buf.length ≤ f.maxExtentSize := by
    by_contra long
    exact (write_oversized plain behind (by omega) depth).ne_ok f' returned
  have within : ∀ e ∈ f.extents, offset - e.offset + buf.length ≤ f.maxExtentSize := by
    intro e member
    by_contra long
    rcases plain.cases with none | ⟨x, one⟩
    · rw [none] at member
      exact absurd member List.not_mem_nil
    · rw [one] at member
      cases List.mem_singleton.mp member
      exact (write_overlong plain.geometry one (behind e (by rw [one]; exact member)) (by omega)
        fits depth).ne_ok
        f' returned
  refine ⟨?_, fits, within⟩
  by_contra past
  cases depth with
  | zero => cases returned
  | succ depth =>
      rcases plain.cases with none | ⟨x, one⟩
      · exact (write_first_past plain.geometry none fits (by omega) depth).ne_ok f' returned
      · have here : x ∈ f.extents := by rw [one]; exact List.mem_singleton_self x
        exact (write_single_past plain.geometry one (plain.words x here) (behind x here)
          (within x here) (by omega)
          depth).ne_ok f' returned

/-- Above the first block, a write returns exactly when it fits. -/
theorem write_returns_iff {f : BlockFile} (plain : Plain f) {buf : Bytes} {offset : Nat}
    (behind : ∀ e ∈ f.extents, e.offset ≤ offset) :
    (∃ depth f', f.write depth buf offset = .ok f') ↔ f.Takes offset buf.length := by
  constructor
  · rintro ⟨depth, f', returned⟩
    exact takes_of_write plain behind returned
  · intro takes
    obtain ⟨e, written, _⟩ := write_content plain behind takes 0
    exact ⟨1, _, written⟩

/-! ### Runs -/

theorem Plain.orderly {f : BlockFile} (plain : Plain f) : Orderly f := by
  refine ⟨?_, plain.words⟩
  rcases plain.cases with none | ⟨e, one⟩
  · rw [none]
    exact List.Pairwise.nil
  · rw [one]
    exact List.pairwise_singleton _ _

theorem Plain.noGap {f : BlockFile} (plain : Plain f) {offset : Nat}
    (within : offset ≤ f.content.length) :
    f.NoGap offset := by
  intro front e back split past
  rcases plain.cases with none | ⟨x, one⟩
  · exact absurd (none.symm.trans split) (by simp)
  · have here : e ∈ f.extents := by
      rw [split]
      exact List.mem_append_right _ List.mem_cons_self
    have same : e = x := by simpa [one] using here
    rw [content_single one, List.length_append, List.length_replicate] at within
    rw [same, Extent.end] at past
    omega

theorem new_eq {k : Nat} (small : k ≤ 29) :
    new (2 ^ k) = .ok ⟨[], 2 ^ k, 2 ^ (k + 1) - 1, clearMask 0x7FFFFFFF (2 ^ (k + 1) - 1)⟩ := by
  have bound : 2 ^ (k + 1) ≤ 2 ^ 30 := Nat.pow_le_pow_right (by decide) (by omega)
  have power : (2 ^ k).isPowerOfTwo := ⟨k, rfl⟩
  have double : 2 ^ k * 2 % 2 ^ 64 = 2 ^ (k + 1) := by
    rw [← pow_succ, Nat.mod_eq_of_lt (by omega)]
  have positive : 1 ≤ 2 ^ (k + 1) := Nat.one_le_two_pow
  simp only [new, power, not_true, if_false, double, checkedSub, positive, if_true, Except.ok_bind]
  rfl

theorem new_plain {k : Nat} (small : k ≤ 29) {f : BlockFile} (fresh : new (2 ^ k) = .ok f) :
    Plain f ∧ f.extents = [] := by
  rw [new_eq small] at fresh
  cases fresh
  refine ⟨⟨⟨⟨k + 1, by omega, rfl⟩, rfl⟩, Nat.zero_le _, ?_⟩, rfl⟩
  intro e member
  exact absurd member List.not_mem_nil

theorem write_returns_iff_byte :
    ∃ f, new (2 ^ 12) = .ok f ∧ ((∃ depth f', f.write depth [7] 0 = .ok f') ↔ f.Takes 0 1) := by
  have fresh := new_eq (k := 12) (by decide)
  obtain ⟨plain, none⟩ := new_plain (by decide) fresh
  refine ⟨_, fresh, write_returns_iff plain ?_⟩
  intro e member
  rw [none] at member
  exact absurd member List.not_mem_nil

/-- The writes of a run: where, and what. -/
def writeAll (depth : Nat) (f : BlockFile) (ws : List (Nat × Bytes)) : Except Crash BlockFile :=
  ws.foldlM (fun f w => f.write depth w.2 w.1) f

/-- The same writes on a flat file. -/
def flatAll (content : Bytes) (ws : List (Nat × Bytes)) : Bytes :=
  ws.foldl (fun content w => Overlay.write 0 content w.1 w.2) content

theorem writeAll_flat {f : BlockFile} (plain : Plain f) {base : Nat}
    (based : ∀ e ∈ f.extents, e.offset = base) {ws : List (Nat × Bytes)}
    (start : f.extents = [] → ∀ w ∈ ws.head?, clearMask w.1 f.blockMask = base)
    (room : ∀ w ∈ ws, base ≤ w.1 ∧ w.1 - base + w.2.length ≤ f.maxExtentSize ∧
      w.1 + w.2.length < 2 ^ 64)
    (depth : Nat) :
    ∃ f', f.writeAll (depth + 1) ws = .ok f' ∧ Plain f' ∧ f'.content = flatAll f.content ws := by
  induction ws generalizing f with
  | nil => exact ⟨f, rfl, plain, rfl⟩
  | cons w ws ih =>
      obtain ⟨above, fits, word⟩ := room w List.mem_cons_self
      have behind : ∀ e ∈ f.extents, e.offset ≤ w.1 := fun e member => based e member ▸ above
      have within : ∀ e ∈ f.extents, w.1 - e.offset + w.2.length ≤ f.maxExtentSize := by
        intro e member
        rw [based e member]
        exact fits
      obtain ⟨e, written, next, same, place⟩ :=
        write_content plain behind ⟨word, by omega, within⟩ depth
      have kept : e.offset = base := by
        rcases place with ⟨none, first⟩ | ⟨x, member, same⟩
        · exact first.trans (start none w rfl)
        · exact same.trans (based x member)
      obtain ⟨f', rest, plain', content'⟩ :=
        ih next (fun x member => by rw [List.mem_singleton.mp member, kept])
          (fun none => absurd none (by simp)) (fun w member =>
            room w (List.mem_cons_of_mem _ member))
      refine ⟨f', ?_, plain', ?_⟩
      · rw [writeAll, List.foldlM_cons, written]
        exact rest
      · rw [content', same]
        rfl

/-- A run of writes above the first block written leaves a file whose size and
reads are those of the flat file the same writes leave; only reads past the end panic. -/
theorem writes_refine_flat (k : Nat) (small : k ≤ 29) (f : BlockFile) (fresh : new (2 ^ k) = .ok f)
    (depth base : Nat) (ws : List (Nat × Bytes))
    (start : ∀ w ∈ ws.head?, clearMask w.1 f.blockMask = base)
    (room : ∀ w ∈ ws, base ≤ w.1 ∧ w.1 - base + w.2.length ≤ f.maxExtentSize ∧
      w.1 + w.2.length < 2 ^ 64) :
    ∃ f', f.writeAll (depth + 1) ws = .ok f' ∧ f'.size = .ok (flatAll [] ws).length ∧
      ∀ buf offset, offset + buf.length < 2 ^ 64 →
        f'.read buf offset =
          if offset ≤ (flatAll [] ws).length then
            .ok (min buf.length ((flatAll [] ws).length - offset),
              ((flatAll [] ws).drop offset).take buf.length ++ buf.drop
              ((flatAll [] ws).length - offset))
          else .error .panic := by
  obtain ⟨plain, none⟩ := new_plain small fresh
  have based : ∀ e ∈ f.extents, e.offset = base := by
    intro e member
    rw [none] at member
    exact absurd member List.not_mem_nil
  obtain ⟨f', written, plain', same⟩ := writeAll_flat plain based (fun _ => start) room depth
  rw [content_nil none] at same
  refine ⟨f', written, by rw [size_content plain'.orderly, same], ?_⟩
  intro buf offset word
  rw [← same]
  split
  · next within => exact read_content plain'.orderly buf word within (plain'.noGap within)
  · next past => exact read_past (size_content plain'.orderly) buf (by omega)

theorem writes_refine_flat_byte :
    ∃ f f', new (2 ^ 12) = .ok f ∧ f.writeAll 1 [(0, [7])] = .ok f' ∧ f'.size = .ok 1 := by
  have fresh := new_eq (k := 12) (by decide)
  obtain ⟨plain, _⟩ := new_plain (by decide) fresh
  have room := plain.geometry.max_pos
  obtain ⟨f', written, size, _⟩ := writes_refine_flat 12 (by decide) _ fresh 0 0 [(0, [7])]
    (by
      intro w member
      cases member
      exact Nat.le_zero.mp (clearMask_le 0 _))
    (by
      intro w member
      cases List.mem_singleton.mp member
      exact ⟨le_rfl, room, by decide⟩)
  exact ⟨_, f', fresh, written, size⟩

/-! ### Writes below the first block -/

theorem searchExtent_below {f : BlockFile} (apart : Apart f.extents) {offset : Nat}
    (below : ∀ e ∈ f.extents, offset < e.offset) : f.searchExtent offset .low = .error (-1) := by
  have located := searchExtent_located apart offset .low
  generalize f.searchExtent offset .low = found at located ⊢
  cases located with
  | found front e back split starts => exact absurd (below e (by rw [split]; simp)) (by omega)
  | between front back split before above =>
      cases front with
      | nil => rfl
      | cons e front =>
          have first := before e List.mem_cons_self
          exact absurd (below e (by rw [split]; simp)) (by omega)

/-- A write in front of everything written so far becomes the end of the file:
the size drops to where it ended, and reading anything behind that panics. -/
theorem write_below_hides (f : BlockFile) (g : Geometry f) (orderly : Orderly f) (buf : Bytes)
    (offset : Nat) (below : ∀ e ∈ f.extents, offset < e.offset)
    (fits : buf.length ≤ f.maxExtentSize) (word : offset + buf.length < 2 ^ 64) (depth : Nat) :
    ∃ f', f.write (depth + 1) buf offset = .ok f' ∧ f'.size = .ok (offset + buf.length) ∧
      ∀ out position, offset + buf.length < position → f'.read out position = .error .panic := by
  have mask := g.mask_lt
  have max := g.max_lt
  have low := clearMask_le offset f.blockMask
  let last : Extent :=
    { offset := clearMask offset f.blockMask
      data := List.replicate (offset - clearMask offset f.blockMask) 0 ++ buf }
  have size : ({ f with extents := f.extents ++ [last] } : BlockFile).size =
      .ok (offset + buf.length) := by
    have ending : last.end = offset + buf.length := by
      simp only [last, Extent.end, List.length_append, List.length_replicate]
      omega
    simp only [BlockFile.size, List.getLast?_concat, ending]
    exact checkWord_ok word
  refine ⟨{ f with extents := f.extents ++ [last] }, ?_, size, ?_⟩
  · unfold write
    rw [checkWord_ok (by omega), searchExtent_below orderly.apart below, checkWord_ok word]
    simp only [Except.ok_bind, g.roundUp_le fits, if_false, if_true]
    rfl
  · intro out position behind
    exact read_past size out behind

theorem write_below_hides_byte :
    ∃ f f' : BlockFile, f.size = .ok 8193 ∧ f.write 1 [7] 0 = .ok f' ∧ f'.size = .ok 1 ∧
      f'.read [0] 8192 = .error .panic := by
  let f : BlockFile := ⟨[⟨8192, [1]⟩], 2 ^ 12, 2 ^ 13 - 1, clearMask 0x7FFFFFFF (2 ^ 13 - 1)⟩
  have geometry : Geometry f := ⟨⟨13, by decide, rfl⟩, rfl⟩
  have orderly : Orderly f := by
    refine ⟨List.pairwise_singleton _ _, ?_⟩
    intro e member
    rw [List.mem_singleton.mp member]
    decide
  obtain ⟨f', written, size, hidden⟩ := write_below_hides f geometry orderly [7] 0
    (by
      intro e member
      rw [List.mem_singleton.mp member]
      decide)
    geometry.max_pos (by decide) 0
  exact ⟨f, f', rfl, written, size, hidden [0] 8192 (by decide)⟩

end ProxmoxFuse.BlockFile
