import ProxmoxFuse.Obligations

/-!
# Buffers and the writes that share them

The read buffer is counted once by the session, once by every live `Write` and
once by the turn that is processing a message. `Buffers` says that the counts are
right and that every `Write` still finds its message at the front of the buffer
it borrowed from; a buffer that is read into is shared by nobody.
-/
namespace ProxmoxFuse
open ArcHeap

/-- The references a request holds. -/
def Request.refs : Request → Nat → Nat
  | .write r => ref r.buffer
  | _ => fun _ => 0

/-- The references of all these requests. -/
def borrowed (rs : List Request) (i : Nat) : Nat := (rs.map (·.refs i)).sum

@[simp] theorem borrowed_nil (i : Nat) : borrowed [] i = 0 := rfl

@[simp] theorem borrowed_cons (r : Request) (rs : List Request) (i : Nat) :
    borrowed (r :: rs) i = r.refs i + borrowed rs i := by
  simp [borrowed]

@[simp] theorem borrowed_append (rs qs : List Request) (i : Nat) :
    borrowed (rs ++ qs) i = borrowed rs i + borrowed qs i := by
  simp [borrowed]

theorem borrowed_perm {rs qs : List Request} (same : rs.Perm qs) (i : Nat) :
    borrowed rs i = borrowed qs i :=
  (same.map _).sum_eq

theorem refs_le_borrowed {r : Request} {rs : List Request} (member : r ∈ rs) (i : Nat) :
    r.refs i ≤ borrowed rs i := by
  obtain ⟨front, back, rfl⟩ := List.append_of_mem member
  simp only [borrowed_append, borrowed_cons]
  omega

theorem borrowed_forgets {rs : List Request} (forgets : ∀ r ∈ rs, r.isForget = true) (i : Nat) :
    borrowed rs i = 0 := by
  induction rs with
  | nil => rfl
  | cons r rs ih =>
      have kind := forgets r List.mem_cons_self
      have none : r.refs i = 0 := by cases r <;> first | rfl | cases kind
      rw [borrowed_cons, none, ih fun q member => forgets q (List.mem_cons_of_mem _ member)]

/-- A `Write` finds its message at the front of its buffer, with room for the data it names. -/
def Request.Intact (heap : ArcHeap Bytes) (m : Message) : Request → Prop
  | .write r => m.unique? = some r.request.unique ∧ r.dataOffset = 80 ∧
      r.size = (Packed.ofBytes (m.bytes.drop 40) : FuseWriteIn).size.toNat ∧
      80 + r.size ≤ m.bytes.length ∧ m.bytes <+: heap.value r.buffer
  | _ => True

/-- Only the contents of the buffer a request borrows from matter to it. -/
theorem Request.Intact.frame {heap heap' : ArcHeap Bytes} {m : Message} {r : Request}
    (h : r.Intact heap m) (same : ∀ i, 0 < r.refs i → heap'.value i = heap.value i) :
    r.Intact heap' m := by
  cases r with
  | write r =>
      obtain ⟨unique, offset, size, fits, front⟩ := h
      refine ⟨unique, offset, size, fits, ?_⟩
      rw [same r.buffer (by simp [Request.refs])]
      exact front
  | _ => trivial

/-- An intact `Write` reads its data, in bounds. -/
theorem Write.data_of_intact {r : Write} {heap : ArcHeap Bytes} {m : Message}
    (h : (Request.write r).Intact heap m) : r.data heap = .ok ((m.bytes.drop 80).take r.size) := by
  obtain ⟨_, offset, _, fits, rest, front⟩ := h
  have upTo : sliceTo (heap.value r.buffer) (r.dataOffset + r.size) =
      .ok (m.bytes.take (80 + r.size)) := by
    rw [← front, offset, sliceTo, if_pos (by simp; omega), List.take_append_of_le_length fits]
  rw [Write.data, upTo]
  simp only [bind, Except.bind, offset]
  rw [sliceFrom, if_pos (by simp; omega), List.drop_take]
  congr 2
  omega

/-- The queued requests with their messages, and the held ones. -/
def World.sourced (w : World) : List (Request × Message) := w.fuse.pending.zip w.origins ++ w.held

def World.refs (w : World) (i : Nat) : Nat :=
  (bif w.live then ref w.fuse.buf i else 0) + borrowed w.requests i

structure Buffers (w : World) : Prop where
  counted : w.heap.Counted w.refs
  sources : w.origins.length = w.fuse.pending.length
  read : ∀ p ∈ w.sourced, p.2 ∈ messages w.trace
  intact : ∀ p ∈ w.sourced, p.1.Intact w.heap p.2

theorem mounted_buffers (ops : EnabledOps) (initDone : Bool) (outcome : Nat → WritevResult)
    (pageSize : Int64) :
    Buffers (World.mounted ops initDone outcome pageSize) where
  counted := by
    constructor
    · intro i
      by_cases first : i = 0 <;> simp [World.refs, World.mounted, World.requests, ref, first]
    · intro i fresh
      have later : i ≠ 0 := Nat.ne_of_gt fresh
      simp [World.refs, World.mounted, World.requests, ref, later]
  sources := rfl
  read := by simp [World.sourced, World.mounted]
  intact := by simp [World.sourced, World.mounted]

/-- Anything that leaves heap, buffer and requests alone. -/
theorem Buffers.frame {w w' : World} (b : Buffers w) (trace : w.trace <+: w'.trace)
    (heap : w'.heap = w.heap) (live : w'.live = w.live) (buf : w'.fuse.buf = w.fuse.buf)
    (pending : w'.fuse.pending = w.fuse.pending) (held : w'.held = w.held)
    (origins : w'.origins = w.origins) : Buffers w' := by
  have kept : messages w.trace ⊆ messages w'.trace := (trace.filterMap _).subset
  have refs : w'.refs = w.refs := by
    funext i
    simp only [World.refs, World.requests, live, buf, pending, held]
  refine ⟨by rw [heap, refs]; exact b.counted, by rw [origins, pending]; exact b.sources, ?_, ?_⟩
  · simp only [World.sourced, pending, origins, held]
    exact fun p member => kept (b.read p member)
  · simp only [World.sourced, pending, origins, held, heap]
    exact b.intact

theorem Buffers.observe {w : World} (b : Buffers w) (o : Obs) : Buffers (w.observe o) :=
  b.frame (List.prefix_append _ _) rfl rfl rfl rfl rfl rfl

theorem Buffers.finish {w : World} (b : Buffers w) : Buffers w.finish :=
  b.frame (List.prefix_refl _) rfl rfl rfl rfl rfl rfl

theorem Buffers.watch {w : World} (b : Buffers w) (ready : Bool) : Buffers (w.watch ready) :=
  b.frame (List.prefix_append _ _) rfl rfl rfl rfl rfl rfl

theorem Buffers.yield {w : World} (b : Buffers w) {r : Request} {rest : List Request}
    (queue : w.fuse.pending = r :: rest) : Buffers (w.yield r rest) := by
  have some := b.sources
  rw [queue] at some
  obtain ⟨m, ms, origins⟩ := List.exists_cons_of_length_eq_add_one some
  have moved : (w.yield r rest).requests.Perm w.requests := by
    simp only [World.requests, World.yield, queue, List.map_append, List.map_cons, List.map_nil,
      ← List.append_assoc]
    exact List.perm_append_singleton _ _
  have refs : (w.yield r rest).refs = w.refs := by
    funext i
    exact congrArg _ (borrowed_perm moved i)
  have kept : ∀ p ∈ (w.yield r rest).sourced, p ∈ w.sourced := by
    intro p member
    simp only [World.sourced, World.yield, queue, origins, List.headD_cons, List.tail_cons,
      List.zip_cons_cons, List.mem_append, List.mem_cons] at member ⊢
    grind
  refine ⟨refs ▸ b.counted, ?_, fun p member => b.read p (kept p member),
    fun p member => b.intact p (kept p member)⟩
  simpa [World.yield, origins] using some

/-! ### Reading -/

/-- The buffer that is about to be read into is borrowed by no request. -/
theorem Buffers.alone {w : World} (b : Buffers w) (live : w.live = true) :
    (w.heap.getMut w.fuse.buf).isSome = true ↔ borrowed w.requests w.fuse.buf = 0 := by
  have refs : w.refs = fun i => borrowed w.requests i + ref w.fuse.buf i := by
    funext i
    simp only [World.refs, live, cond_true]
    omega
  have counted := b.counted
  rw [refs] at counted
  exact counted.getMut_isSome

theorem Buffers.borrowed_lt_next {w : World} (b : Buffers w) {i : Nat}
    (held : 0 < borrowed w.requests i) :
    i < w.heap.next := by
  apply b.counted.lt_next
  simp only [World.refs]
  omega

theorem mem_requests_of_sourced {w : World} {p : Request × Message} (member : p ∈ w.sourced) :
    p.1 ∈ w.requests := by
  rcases List.mem_append.mp member with queued | held
  · exact List.mem_append_left _ (List.of_mem_zip queued).1
  · exact List.mem_append_right _ (List.mem_map_of_mem held)

/-- A change of contents outside the borrowed buffers. -/
theorem Buffers.set {w : World} (b : Buffers w) {heap : ArcHeap Bytes}
    (counted : heap.Counted w.refs)
    (same : ∀ i, 0 < borrowed w.requests i → heap.value i = w.heap.value i) :
    Buffers { w with heap } := by
  refine ⟨counted, b.sources, b.read, ?_⟩
  intro p member
  refine (b.intact p member).frame fun i held => same i ?_
  have le := refs_le_borrowed (mem_requests_of_sourced (w := w) member) i
  omega

theorem Buffers.swap {w : World} (b : Buffers w) (live : w.live = true) : Buffers w.swap := by
  have old : w.fuse.buf < w.heap.next := by
    apply b.counted.lt_next
    simp [World.refs, live]
  have moved : (fun i => w.refs i + ref w.heap.next i) = fun i => w.swap.refs i +
      ref w.fuse.buf i := by
    funext i
    simp only [World.refs, World.swap, World.requests, live, cond_true]
    omega
  have counted := b.counted.alloc (List.replicate READ_BUF_SIZE 0)
  rw [moved] at counted
  refine ⟨counted.release, b.sources, b.read, ?_⟩
  intro p member
  refine (b.intact p member).frame fun i held => ?_
  have le := refs_le_borrowed (mem_requests_of_sourced (w := w) member) i
  have below := b.borrowed_lt_next (i := i) (by omega)
  exact w.heap.alloc_value_of_ne _ (by omega)

theorem World.swap_alone {w : World} (b : Buffers w) (live : w.live = true) :
    (w.swap.heap.getMut w.swap.fuse.buf).isSome = true := by
  apply ((b.swap live).alone live).mpr
  by_contra held
  exact Nat.lt_irrefl _ (b.borrowed_lt_next (i := w.heap.next) (Nat.pos_of_ne_zero held))

/-- The `unwrap` after the re-allocation never fails, and what it returns is unshared. -/
theorem Buffers.exclusive {w : World} (b : Buffers w) (live : w.live = true) :
    ∃ w₁, w.exclusive = some w₁ ∧ Buffers w₁ ∧ borrowed w₁.requests w₁.fuse.buf = 0 ∧
      w₁.live = true := by
  by_cases alone : (w.heap.getMut w.fuse.buf).isSome = true
  · refine ⟨w, ?_, b, (b.alone live).mp alone, live⟩
    obtain ⟨contents, same⟩ := Option.isSome_iff_exists.mp alone
    rw [World.exclusive, if_neg (by simp [same]), same, Option.map_some]
  · have own := World.swap_alone b live
    refine ⟨w.swap, ?_, b.swap live, ((b.swap live).alone live).mp own, live⟩
    obtain ⟨contents, same⟩ := Option.isSome_iff_exists.mp own
    rw [World.exclusive, if_pos (by simpa using alone)]
    exact (congrArg (Option.map fun _ => w.swap) same).trans rfl

theorem Buffers.fill {w : World} (b : Buffers w) (alone : borrowed w.requests w.fuse.buf = 0)
    (m : Message) :
    Buffers (w.fill m) := by
  refine b.set (b.counted.set _ _) fun i held => ?_
  apply ArcHeap.set_value_of_ne
  rintro rfl
  omega

/-- What `process_request` adds to the queue and to the counts. -/
theorem Processed.appended {fuse fuse' : Fuse} {buf : Nat} {bytes : Bytes} {host host' : Host}
    {heap heap' : ArcHeap Bytes} {result : Except Fault Unit}
    (view : Processed fuse buf bytes host heap (result, fuse', host', heap')) :
    ∃ rs, fuse'.pending = fuse.pending ++ rs ∧ fuse'.buf = fuse.buf ∧ heap'.value = heap.value ∧
      (∀ r ∈ rs, r.isForget = false → (accepted bytes).map (·.1.unique) = some r.unique) ∧
      (∀ r ∈ rs, r.Borrows buf bytes.length (bytes.drop 40)) ∧
      ∀ refs, heap.Counted refs → 0 < refs buf → heap'.Counted fun i => refs i + borrowed rs i := by
  have same : ∀ refs : Nat → Nat, heap.Counted refs →
      heap.Counted fun i => refs i + borrowed [] i :=
    fun refs counted => counted
  cases view with
  | rejected | initRefused | initUnsent | initDone | left | destroyed =>
      exact ⟨[], by simp, rfl, rfl, by simp, by simp, fun refs counted _ => same refs counted⟩
  | queued r header body o good phase opcode answered fresh =>
      have body_eq : body = bytes.drop 40 := accepted_body good
      refine ⟨[r], rfl, rfl, ?_, ?_, ?_, ?_⟩
      · cases r <;> rfl
      · intro q member _
        simp [List.mem_singleton.mp member, good, fresh.unique_eq]
      · intro q member
        rw [List.mem_singleton.mp member, ← body_eq]
        exact fresh.borrows
      · intro refs counted held
        cases r with
        | write r =>
            have here : r.buffer = buf := fresh.borrows.1
            have shared := counted.retain (counted.lt_next held)
            simpa only [Request.retainBuffer, here, borrowed_cons, borrowed_nil, Nat.add_zero,
              Request.refs]
              using shared
        | _ => exact counted
  | forgets _ rs header body o good phase opcode forgetting forgets all =>
      refine ⟨rs, rfl, rfl, rfl, ?_, ?_, ?_⟩
      · intro r member kind
        simp [forgets r member] at kind
      · intro r member
        have kind := forgets r member
        cases r <;> trivial
      · intro refs counted _
        have none : (fun i => refs i + borrowed rs i) = refs := by
          funext i
          rw [borrowed_forgets forgets, Nat.add_zero]
        rw [none]
        exact counted

theorem Request.Borrows.intact {r : Request} {buf : Nat} {m : Message} {heap : ArcHeap Bytes}
    (borrows : r.Borrows buf m.bytes.length (m.bytes.drop 40)) (front : m.bytes <+: heap.value buf)
    (unique : r.isForget = false → m.unique? = some r.unique) : r.Intact heap m := by
  cases r with
  | write r =>
      obtain ⟨here, offset, size, fits⟩ := borrows
      exact ⟨unique rfl, offset, size, fits, here ▸ front⟩
  | _ => trivial

theorem Buffers.process {w w' : World} (b : Buffers w) (live : w.live = true)
    {m : Message} (read : m ∈ messages w.trace) (alone : borrowed w.requests w.fuse.buf = 0)
    {result : Except Fault Unit}
    (done : (w.fill m).process m = (result, w')) : Buffers w' := by
  obtain ⟨fuse, host, heap, rfl, view⟩ := World.process_processed done
  obtain ⟨rs, pending, buf, value, unique, borrows, counts⟩ := view.appended
  have filled := b.fill alone m
  have front : m.bytes <+: (heap.release w.fuse.buf).value w.fuse.buf := by
    rw [ArcHeap.release_value, value, w.fill_value m]
    exact List.prefix_append _ _
  have here : w.fuse.buf < (w.fill m).heap.next := by
    apply filled.counted.lt_next
    simp [World.refs, live, World.fill]
  have counted := counts _ (filled.counted.retain here) (by simp)
  have split : ∀ p ∈ (w.processed m fuse host heap).sourced,
      p ∈ w.sourced ∨ (p.1 ∈ rs ∧ p.2 = m) := by
    intro p member
    simp only [World.sourced, World.processed, pending, List.length_append, Nat.add_sub_cancel_left,
      List.zip_append b.sources.symm, List.mem_append] at member
    rcases member with (queued | new) | held
    · exact .inl (List.mem_append_left _ queued)
    · exact .inr ⟨(List.of_mem_zip new).1, List.eq_of_mem_replicate (List.of_mem_zip new).2⟩
    · exact .inl (List.mem_append_right _ held)
  refine ⟨?_, ?_, ?_, ?_⟩
  · apply ArcHeap.Counted.release
    have same : (fun i => (w.fill m).refs i + ref w.fuse.buf i + borrowed rs i) =
        fun i => (w.processed m fuse host heap).refs i + ref w.fuse.buf i := by
      funext i
      simp only [World.refs, World.fill, World.requests, World.processed, pending, buf,
        borrowed_append, live, cond_true]
      omega
    rw [← same]
    exact counted
  · simp [World.processed, pending, b.sources]
  · intro p member
    rcases split p member with old | ⟨_, origin⟩
    · exact b.read p old
    · exact origin ▸ read
  · intro p member
    rcases split p member with old | ⟨new, origin⟩
    · exact (filled.intact p old).frame fun i _ => by
        rw [World.processed, ArcHeap.release_value, value, ArcHeap.retain_value]
    · rw [origin]
      exact (borrows _ new).intact front (unique _ new)

theorem Buffers.afterRead {w : World} (b : Buffers w) (live : w.live = true)
    (alone : borrowed w.requests w.fuse.buf = 0) (result : ReadResult) :
    Buffers ((w.observeRead result).afterRead result).2 := by
  have view := World.afterRead_cases (w.observeRead result) result
  generalize (w.observeRead result).afterRead result = out at view
  have b' : Buffers (w.observeRead result) := b.observe _
  cases view with
  | again => exact b'
  | closed errno gone => exact b'.finish.observe _
  | failed errno real present => exact b'.observe _
  | eof m empty => exact b'.finish.observe _
  | accepted m some w' done => exact b'.process live (by simp [World.observeRead]) alone done
  | refused m some w' e done =>
      exact (b'.process live (by simp [World.observeRead]) alone done).observe _
  | panicked m some w' done =>
      exact (b'.process live (by simp [World.observeRead]) alone done).observe _

theorem Buffers.turn {w : World} (b : Buffers w) (live : w.live = true) (t : Turn) :
    Buffers (w.pollTurn t).2 := by
  have view := w.pollTurn_turned t
  generalize w.pollTurn t = out at view
  cases view with
  | yielded r rest queue => exact (b.yield queue).observe _
  | finished queue stopped => exact b.observe _
  | watcherTaken queue unfinished taken => exact b.observe _
  | watcherDone idle => exact (b.watch true).finish.observe _
  | pending idle => exact (b.watch false).observe _
  | unready idle e => exact ((b.watch false).observe _).observe _
  | shared idle none => exact (b.watch false).observe _
  | read idle w₁ own =>
      obtain ⟨w₂, own', b₂, alone, live₂⟩ := (b.watch false).exclusive live
      rw [own] at own'
      cases own'
      exact b₂.afterRead live₂ alone t.read

/-! ### Runs -/

section runs
variable {τ : Type} [Timeout τ]

theorem Call.after_refs {r : Request} (c : Call τ r) : c.after.refs = r.refs := by
  cases c <;> rfl

theorem Call.after_intact {r : Request} (c : Call τ r) (heap : ArcHeap Bytes) (m : Message) :
    c.after.Intact heap m := by
  cases c <;> trivial

theorem releaseBuffer_value (r : Request) (heap : ArcHeap Bytes) :
    (r.releaseBuffer heap).value = heap.value := by
  cases r <;> rfl

theorem releaseBuffer_counted {r : Request} {heap : ArcHeap Bytes} {refs : Nat → Nat}
    (counted : heap.Counted fun i => refs i + r.refs i) : (r.releaseBuffer heap).Counted refs := by
  cases r with
  | write r => exact ArcHeap.Counted.release counted
  | _ => exact counted

/-- Dropped requests give their references back. -/
theorem foldl_releaseBuffer {rs : List Request} {heap : ArcHeap Bytes} {refs : Nat → Nat}
    (counted : heap.Counted fun i => refs i + borrowed rs i) :
    (rs.foldl (fun heap r => r.releaseBuffer heap) heap).Counted refs ∧
      (rs.foldl (fun heap r => r.releaseBuffer heap) heap).value = heap.value := by
  induction rs generalizing heap with
  | nil => exact ⟨counted, rfl⟩
  | cons r rs ih =>
      have same : (fun i => refs i + borrowed (r :: rs) i) =
          fun i => (refs i + borrowed rs i) + r.refs i := by
        funext i
        simp only [borrowed_cons]
        omega
      rw [same] at counted
      obtain ⟨rest, value⟩ := ih (releaseBuffer_counted counted)
      exact ⟨rest, value.trans (releaseBuffer_value r heap)⟩

theorem Buffers.call {w : World} (b : Buffers w) {front back : List (Request × Message)}
    {r : Request} {m : Message} (split : w.held = front ++ (r, m) :: back) (c : Call τ r) :
    Buffers { w with held := front ++ (c.after, m) :: back } := by
  have refs : World.refs { w with held := front ++ (c.after, m) :: back } = w.refs := by
    funext i
    simp only [World.refs, World.requests, split, List.map_append, List.map_cons, borrowed_append,
      borrowed_cons, c.after_refs]
  have kept : ∀ p ∈ World.sourced { w with held := front ++ (c.after, m) :: back },
      p ∈ w.sourced ∨ p = (c.after, m) := by
    intro p member
    simp only [World.sourced, split, List.mem_append, List.mem_cons] at member ⊢
    grind
  refine ⟨by rw [refs]; exact b.counted, b.sources, ?_, ?_⟩
  · intro p member
    rcases kept p member with old | rfl
    · exact b.read p old
    · exact b.read (r, m) (by simp [World.sourced, split])
  · intro p member
    rcases kept p member with old | rfl
    · exact b.intact p old
    · exact c.after_intact _ _

theorem Buffers.consume {w : World} (b : Buffers w) {front back : List (Request × Message)}
    {r : Request} {m : Message} (split : w.held = front ++ (r, m) :: back) (c : Consume τ r) :
    Buffers (w.consume (front ++ back) r c) := by
  have kept : ∀ p ∈ (w.consume (front ++ back) r c).sourced, p ∈ w.sourced := by
    intro p member
    simp only [World.sourced, World.consume, split, List.mem_append, List.mem_cons] at member ⊢
    grind
  have refs : w.refs = fun i => (w.consume (front ++ back) r c).refs i + r.refs i := by
    funext i
    simp only [World.refs, World.requests, World.consume, split, List.map_append, List.map_cons,
      borrowed_append, borrowed_cons]
    omega
  refine ⟨releaseBuffer_counted (refs ▸ b.counted), b.sources,
    fun p member => b.read p (kept p member), ?_⟩
  intro p member
  refine (b.intact p (kept p member)).frame fun i _ => ?_
  exact congrFun (releaseBuffer_value r w.heap) i

theorem Buffers.dropFuse {w : World} (b : Buffers w) (live : w.live = true) :
    Buffers w.dropFuse := by
  have refs : w.refs = fun i => (borrowed (w.held.map Prod.fst) i + borrowed w.fuse.pending i) +
      ref w.fuse.buf i := by
    funext i
    simp only [World.refs, World.requests, live, cond_true, borrowed_append]
    omega
  have counted := b.counted
  rw [refs] at counted
  obtain ⟨counted, value⟩ := foldl_releaseBuffer counted.release
  refine ⟨?_, rfl, ?_, ?_⟩
  · have left : w.dropFuse.refs = borrowed (w.held.map Prod.fst) := by
      funext i
      simp [World.refs, World.dropFuse, World.requests]
    rw [left]
    exact counted
  · exact fun p member => b.read p
      (List.mem_append_right _ (by simpa [World.sourced, World.dropFuse] using member))
  · intro p member
    have held : p ∈ w.held := by simpa [World.sourced, World.dropFuse] using member
    refine (b.intact p (List.mem_append_right _ held)).frame fun i _ => ?_
    exact congrFun value i

theorem World.pollTurn_live (w : World) (t : Turn) : (w.pollTurn t).2.live = w.live := by
  have view := w.pollTurn_turned t
  generalize w.pollTurn t = out at view
  cases view with
  | read idle w₁ own =>
      have same : w₁.live = w.live := by
        obtain ⟨rfl, -⟩ | ⟨rfl, -⟩ := World.exclusive_cases own <;> rfl
      rw [← same]
      have view := World.afterRead_cases (w₁.observeRead t.read) t.read
      generalize t.read = result at view ⊢
      generalize (w₁.observeRead result).afterRead result = out at view
      cases view with
      | accepted m some w' done | refused m some w' e done | panicked m some w' done =>
          obtain ⟨fuse, host, heap, rfl, -⟩ := World.process_processed done
          rfl
      | _ => rfl
  | _ => rfl

theorem Buffers.step {may : ∀ r, Consume τ r → WritevResult → Prop} {w w' : World} (b : Buffers w)
    (step : Step τ may w w') : Buffers w' := by
  cases step with
  | poll live turns =>
      have both := World.pollNext_induct (P := fun w => Buffers w ∧ w.live = true)
        (fun w t before => ⟨before.1.turn before.2 t, (w.pollTurn_live t).trans before.2⟩) w
          turns ⟨b, live⟩
      exact both.1
  | call front back r m split c => exact b.call split c
  | consume front back r m split c allowed => exact b.consume split c
  | dropFuse live => exact b.dropFuse live

theorem mounted_run_buffers {ops : EnabledOps} {initDone : Bool} {outcome : Nat → WritevResult}
    {pageSize : Int64} {w : World}
    (run : Reaches τ (World.mounted ops initDone outcome pageSize) w) :
    Buffers w :=
  run_induct (fun _ _ _ b last => b.step last) (mounted_buffers ops initDone outcome pageSize) run

/-- At any point of a run every live `Write` reads exactly the data of the message it was
made from, and a poll that is about to read finds its buffer shared by nobody. -/
theorem write_data_never_clobbered (ops : EnabledOps) (initDone : Bool)
    (outcome : Nat → WritevResult) (pageSize : Int64) (w : World)
    (run : Reaches τ (World.mounted ops initDone outcome pageSize) w) :
    (∀ r : Write, .write r ∈ w.requests → ∃ m ∈ messages w.trace, (.write r, m) ∈ w.sourced ∧
      m.unique? = some r.request.unique ∧
      r.size = (Packed.ofBytes (m.bytes.drop 40) : FuseWriteIn).size.toNat ∧
      80 + r.size ≤ m.bytes.length ∧ r.data w.heap = .ok ((m.bytes.drop 80).take r.size)) ∧
    (w.live = true → ∃ w₁, w.exclusive = some w₁ ∧ (w₁.heap.getMut w₁.fuse.buf).isSome = true ∧
      ∀ r : Write, .write r ∈ w₁.requests → r.buffer ≠ w₁.fuse.buf) := by
  have b := mounted_run_buffers run
  constructor
  · intro r member
    have all : w.sourced.map Prod.fst = w.requests := by
      rw [World.sourced, World.requests, List.map_append,
        List.map_fst_zip (Nat.le_of_eq b.sources.symm)]
    rw [← all] at member
    obtain ⟨⟨_, m⟩, sourced, rfl⟩ := List.mem_map.mp member
    have intact := b.intact _ sourced
    obtain ⟨unique, -, size, fits, -⟩ := intact
    exact ⟨m, b.read _ sourced, sourced, unique, size, fits,
      Write.data_of_intact (b.intact _ sourced)⟩
  · intro live
    obtain ⟨w₁, own, b₁, alone, live₁⟩ := b.exclusive live
    refine ⟨w₁, own, (b₁.alone live₁).mpr alone, ?_⟩
    intro r member same
    have le := refs_le_borrowed member w₁.fuse.buf
    simp [Request.refs, same, alone] at le

end runs

/-- A WRITE of three bytes. -/
def writeMessage : Message :=
  ⟨Packed.bytes (FuseInHeader.mk 83 16 1 1 0 0 0 0 0) ++
    (Packed.bytes (FuseWriteIn.mk 5 0 3 0 0 0 0) ++ [7, 8, 9]), by decide⟩

/-- Another one of two bytes. -/
def secondWrite : Message :=
  ⟨Packed.bytes (FuseInHeader.mk 82 16 2 1 0 0 0 0 0) ++
    (Packed.bytes (FuseWriteIn.mk 5 0 2 0 0 0 0) ++ [4, 5]), by decide⟩

/-- The first one is still held when the second is read, into a fresh buffer. -/
theorem write_data_never_clobbered_three :
    ∃ (w : World) (r : Write),
      Reaches (UInt64 × UInt32) (World.mounted { write := true } true (fun _ => .ok) 4096) w ∧
      .write r ∈ w.requests ∧ r.size = 3 ∧ r.buffer ≠ w.fuse.buf ∧
      messages w.trace = [writeMessage, secondWrite] ∧
      ∃ m ∈ messages w.trace, r.data w.heap = .ok ((m.bytes.drop 80).take r.size) := by
  let r : Write :=
    { request := ⟨1⟩, inode := 1, fh := 5, dataOffset := 80, size := 3, offset := 0, buffer := 0 }
  let r' : Write :=
    { request := ⟨2⟩, inode := 1, fh := 5, dataOffset := 80, size := 2, offset := 0, buffer := 1 }
  have run : Reaches (UInt64 × UInt32) (World.mounted { write := true } true (fun _ => .ok) 4096)
      _ :=
    (Relation.ReflTransGen.single (.takes (r := .write r) rfl ⟨rfl, rfl, rfl⟩ rfl rfl
      (m := writeMessage) (accepted_bytes rfl) rfl rfl)).tail
        (.takes (r := .write r') rfl ⟨rfl, rfl, rfl⟩ rfl rfl (m := secondWrite) (accepted_bytes rfl)
          rfl rfl)
  obtain ⟨m, read, -, -, -, -, data⟩ :=
    (write_data_never_clobbered _ _ _ _ _ run).1 r List.mem_cons_self
  exact ⟨_, r, run, List.mem_cons_self, rfl, by decide, rfl, m, read, data⟩

end ProxmoxFuse
