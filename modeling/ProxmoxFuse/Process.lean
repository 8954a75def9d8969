import ProxmoxFuse.Dispatch

/-!
# What one message can do to a session

`Processed` lists the outcomes of `process_request` once, with the guards that
lead to them; the invariants of the runs are case analyses over it. A message is
identified by its bytes: `accepted` is the header and body of a message that
passes the length checks.
-/
namespace ProxmoxFuse

/-- The header and body of a message that passes the length checks. -/
def accepted (bytes : Bytes) : Option (FuseInHeader × Bytes) :=
  if 40 ≤ bytes.length then
    let header : FuseInHeader := Packed.ofBytes bytes
    if header.len.toNat = bytes.length then some (header, bytes.drop 40) else none
  else none

theorem accepted_body {bytes body : Bytes} {header : FuseInHeader}
    (good : accepted bytes = some (header, body)) :
    body = bytes.drop 40 := by
  simp only [accepted] at good
  split at good
  · split at good
    · cases good
      rfl
    · cases good
  · cases good

/-- A message laid out as a header and a body of the length it states is accepted as such. -/
theorem accepted_bytes {header : FuseInHeader} {body : Bytes}
    (len : header.len.toNat = 40 + body.length) :
    accepted (Packed.bytes header ++ body) = some (header, body) := by
  have size : (Packed.bytes header).length = 40 := Packed.bytes_length header
  simp only [accepted, List.length_append, size, Nat.le_add_right, if_true, Packed.ofBytes_append,
    len, List.drop_left' size]

/-- A buffer whose first `nbytes` bytes are a message is checked as the message itself. -/
theorem checkHeader_ok_iff (bytes rest : Bytes) (p : FuseInHeader × Bytes) :
    checkHeader (bytes ++ rest) bytes.length = .ok p ↔ accepted bytes = some p := by
  have size : Packed.size FuseInHeader = 40 := rfl
  have whole : sliceTo (bytes ++ rest) bytes.length = .ok bytes := by
    rw [sliceTo, if_pos (by simp), List.take_left]
  by_cases short : bytes.length < 40
  · have notLong : ¬ 40 ≤ bytes.length := Nat.not_le.mpr short
    simp [checkHeader, accepted, size, short, notLong]
  · have long : 40 ≤ bytes.length := Nat.not_lt.mp short
    simp only [checkHeader, accepted, size, short, long, if_false, if_true, whole, bind,
      Except.bind, readBody_eq (size.symm ▸ long)]
    by_cases same : (Packed.ofBytes bytes : FuseInHeader).len.toNat = bytes.length
    · simp [same, sliceFrom, long, pure, Except.pure]
    · simp [same]

/-- The reply an accepted INIT gets. -/
def initAttempt (fuse : Fuse) (header : FuseInHeader) (initIn : FuseInitIn) (host : Host) :
    Attempt :=
  replyAttempt header.unique 0 [Packed.bytes (negotiateInit initIn fuse.ops host.pageSize)]
    64 host.next

/-- What `handle_init` makes of a message before it replies. -/
def initRequest (header : FuseInHeader) (body : Bytes) : Except Fault FuseInitIn :=
  let opcode := header.opcode
  if Opcode.fromU32 opcode ≠ some .init then
    .error (.io (.other s!"expected FUSE_INIT, got opcode {opcode}"))
  else
    match readBody FuseInitIn body with
    | .error e => .error e
    | .ok initIn =>
        let major := initIn.major
        if major ≠ FUSE_KERNEL_VERSION then
          .error (.io (.other
            s!"unsupported FUSE protocol major version: {major} (expected {FUSE_KERNEL_VERSION})"))
        else .ok initIn

theorem initRequest_ok {header : FuseInHeader} {body : Bytes} {initIn : FuseInitIn}
    (ok : initRequest header body = .ok initIn) :
    Opcode.fromU32 header.opcode = some .init ∧ readBody FuseInitIn body = .ok initIn := by
  simp only [initRequest] at ok
  split at ok
  · cases ok
  · next opcode =>
      split at ok
      · cases ok
      · next read =>
          split at ok
          · cases ok
          · cases ok
            exact ⟨not_not.mp opcode, read⟩

/-- `handle_init` either refuses without writing, or writes one reply whose
outcome decides. -/
theorem handleInit_eq (fuse : Fuse) (header : FuseInHeader) (body : Bytes) (host : Host) :
    fuse.handleInit header body host =
      match initRequest header body with
      | .error e => (.error e, fuse, host)
      | .ok initIn =>
          match host.next with
          | .ok =>
              (.ok (), { fuse with initDone := true },
                host.extend [initAttempt fuse header initIn host])
          | .err errno =>
              (.error (.io (.os errno)), fuse,
                host.extend [initAttempt fuse header initIn host]) := by
  have sent : ∀ initIn, sendReply header.unique 0
      (Packed.bytes (negotiateInit initIn fuse.ops host.pageSize)) host =
      (host.next.toResult, host.extend [initAttempt fuse header initIn host]) := by
    intro initIn
    have fits : Framable (Packed.bytes (negotiateInit initIn fuse.ops host.pageSize)).length := by
      rw [Packed.bytes_length]
      decide
    rw [sendReply_framable fits, Packed.bytes_length]
    rfl
  unfold Fuse.handleInit initRequest
  dsimp only
  split
  · rfl
  · cases readBody FuseInitIn body with
    | error e => rfl
    | ok initIn =>
        dsimp only
        split
        · rfl
        · rw [sent]
          cases host.next <;> rfl

/-- The outcomes of `process_request` on a message of a buffer. -/
inductive Processed (fuse : Fuse) (buf : Nat) (bytes : Bytes) (host : Host) (heap : ArcHeap Bytes) :
    Except Fault Unit × Fuse × Host × ArcHeap Bytes → Prop where
  | rejected (e : Fault) (bad : accepted bytes = none) :
      Processed fuse buf bytes host heap (.error e, fuse, host, heap)
  | initRefused (e : Fault) (header : FuseInHeader) (body : Bytes)
      (good : accepted bytes = some (header, body)) (phase : fuse.initDone = false) :
      Processed fuse buf bytes host heap (.error e, fuse, host, heap)
  | initUnsent (errno : Int32) (header : FuseInHeader) (body : Bytes) (initIn : FuseInitIn)
      (good : accepted bytes = some (header, body)) (phase : fuse.initDone = false)
      (failed : host.next = .err errno) :
      Processed fuse buf bytes host heap
        (.error (.io (.os errno)), fuse, host.extend [initAttempt fuse header initIn host], heap)
  | initDone (header : FuseInHeader) (body : Bytes) (initIn : FuseInitIn)
      (good : accepted bytes = some (header, body)) (phase : fuse.initDone = false)
      (opcode : Opcode.fromU32 header.opcode = some .init)
      (read : readBody FuseInitIn body = .ok initIn) (sent : host.next = .ok) :
      Processed fuse buf bytes host heap
        (.ok (), { fuse with initDone := true }, host.extend [initAttempt fuse header initIn host],
          heap)
  | left (result : Except Fault Unit) (header : FuseInHeader) (body : Bytes)
      (good : accepted bytes = some (header, body)) (phase : fuse.initDone = true)
      (answered : ∀ o, Opcode.fromU32 header.opcode = some o → o.unanswered = true →
        o = .forget ∧ body.length < 8) :
      Processed fuse buf bytes host heap
        (result, fuse, host.extend (enosys header.unique host.next), heap)
  | queued (r : Request) (header : FuseInHeader) (body : Bytes) (o : Opcode)
      (good : accepted bytes = some (header, body)) (phase : fuse.initDone = true)
      (opcode : Opcode.fromU32 header.opcode = some o) (answered : o.unanswered = false)
      (fresh : r.Fresh fuse.ops header.unique buf bytes.length body o) :
      Processed fuse buf bytes host heap
        (.ok (), { fuse with pending := fuse.pending ++ [r] }, host, r.retainBuffer heap)
  | forgets (result : Except Fault Unit) (rs : List Request) (header : FuseInHeader) (body : Bytes)
      (o : Opcode) (good : accepted bytes = some (header, body)) (phase : fuse.initDone = true)
      (opcode : Opcode.fromU32 header.opcode = some o)
      (forgetting : (o = .forget ∧ 8 ≤ body.length) ∨ o = .batchForget)
      (forgets : ∀ r ∈ rs, r.isForget = true) (all : result = .ok () ∨ rs = []) :
      Processed fuse buf bytes host heap
        (result, { fuse with pending := fuse.pending ++ rs }, host, heap)
  | destroyed (header : FuseInHeader) (body : Bytes) (good : accepted bytes = some (header, body))
      (phase : fuse.initDone = true) (opcode : Opcode.fromU32 header.opcode = some .destroy) :
      Processed fuse buf bytes host heap (.ok (), { fuse with finished := true }, host, heap)

/-- After INIT an accepted message leaves its guard, queues, or is a forget or DESTROY. -/
theorem serve_processed (fuse : Fuse) (buf : Nat) {bytes : Bytes} (host : Host)
    (heap : ArcHeap Bytes) {header : FuseInHeader} {body : Bytes}
    (good : accepted bytes = some (header, body)) (phase : fuse.initDone = true) :
    Processed fuse buf bytes host heap (fuse.serve header body buf bytes.length host heap) := by
  unfold Fuse.serve
  cases opcode : Opcode.fromU32 header.opcode with
  | none =>
      dsimp only
      rw [RequestGuard.drop_eq]
      exact .left (.ok ()) header body good phase (by simp [opcode])
  | some o =>
      cases kind : o.unanswered with
      | false =>
          obtain ⟨result, exit⟩ | ⟨r, fresh, exit⟩ := dispatch_served fuse.ops header body buf
            bytes.length (RequestGuard.new header.unique) heap kind
          · simp only [exit, dropLive, RequestGuard.drop_eq, List.append_nil, Bool.or_false]
            refine .left result header body good phase ?_
            intro o' same unanswered
            rw [opcode] at same
            cases same
            rw [kind] at unanswered
            cases unanswered
          · simp only [exit, dropLive, Bool.or_false]
            exact .queued r header body o good phase opcode kind fresh
      | true =>
          have exit := dispatch_unanswered fuse.ops header body buf bytes.length
            (RequestGuard.new header.unique) heap kind
          dsimp only
          generalize dispatch fuse.ops header body buf bytes.length
            (RequestGuard.new header.unique) heap o = left at exit ⊢
          cases exit with
          | truncated e short =>
              simp only [dropLive, RequestGuard.drop_eq, List.append_nil, Bool.or_false]
              refine .left (.error e) header body good phase ?_
              intro o' same _
              rw [opcode] at same
              cases same
              exact ⟨rfl, short⟩
          | forget rs forgets long =>
              simp only [dropLive, Bool.or_false]
              exact .forgets (.ok ()) rs header body _ good phase opcode (.inl ⟨rfl, long⟩) forgets
                (.inl rfl)
          | batch rs forgets =>
              simp only [dropLive, Bool.or_false]
              exact .forgets (.ok ()) rs header body _ good phase opcode (.inr rfl) forgets
                (.inl rfl)
          | shortBatch e =>
              simp only [dropLive, Bool.or_false]
              exact .forgets (.error e) [] header body _ good phase opcode
                (.inr rfl) (by simp) (.inr rfl)
          | destroy =>
              simp only [dropLive, List.append_nil, Bool.or_true]
              exact .destroyed header body good phase opcode

/-- After INIT an accepted message goes to the dispatcher. -/
theorem processRequest_serve (fuse : Fuse) {buf : Nat} {bytes rest : Bytes} (host : Host)
    {heap : ArcHeap Bytes} {header : FuseInHeader} {body : Bytes}
    (filled : heap.value buf = bytes ++ rest) (good : accepted bytes = some (header, body))
    (phase : fuse.initDone = true) :
    fuse.processRequest buf bytes.length host heap =
      fuse.serve header body buf bytes.length host heap := by
  rw [Fuse.processRequest, filled, (checkHeader_ok_iff bytes rest (header, body)).mpr good]
  dsimp only
  rw [if_neg (by simp [phase])]

theorem processRequest_processed (fuse : Fuse) (buf : Nat) (bytes rest : Bytes) (host : Host)
    (heap : ArcHeap Bytes) (filled : heap.value buf = bytes ++ rest) :
    Processed fuse buf bytes host heap (fuse.processRequest buf bytes.length host heap) := by
  unfold Fuse.processRequest
  rw [filled]
  cases checked : checkHeader (bytes ++ rest) bytes.length with
  | error e =>
      refine .rejected e ?_
      cases good : accepted bytes with
      | none => rfl
      | some p =>
          rw [(checkHeader_ok_iff bytes rest p).mpr good] at checked
          cases checked
  | ok p =>
      obtain ⟨header, body⟩ := p
      have good := (checkHeader_ok_iff bytes rest (header, body)).mp checked
      by_cases phase : fuse.initDone = true
      · dsimp only
        rw [if_neg (by simp [phase])]
        exact serve_processed fuse buf host heap good phase
      · have phase' : fuse.initDone = false := by simpa using phase
        dsimp only
        rw [if_pos (by simp [phase'])]
        rw [handleInit_eq]
        cases request : initRequest header body with
        | error e => exact .initRefused e header body good phase'
        | ok initIn =>
            obtain ⟨opcode, read⟩ := initRequest_ok request
            cases next : host.next with
            | ok => exact .initDone header body initIn good phase' opcode read next
            | err errno => exact .initUnsent errno header body initIn good phase' next

theorem Processed.ops_eq {fuse fuse' : Fuse} {buf : Nat} {bytes : Bytes} {host host' : Host}
    {heap heap' : ArcHeap Bytes} {result : Except Fault Unit}
    (view : Processed fuse buf bytes host heap (result, fuse', host', heap')) :
    fuse'.ops = fuse.ops := by
  cases view <;> rfl

theorem Processed.pageSize_eq {fuse fuse' : Fuse} {buf : Nat} {bytes : Bytes} {host host' : Host}
    {heap heap' : ArcHeap Bytes} {result : Except Fault Unit}
    (view : Processed fuse buf bytes host heap (result, fuse', host', heap')) :
    host'.pageSize = host.pageSize := by
  cases view <;> rfl

theorem Processed.initDone_mono {fuse fuse' : Fuse} {buf : Nat} {bytes : Bytes} {host host' : Host}
    {heap heap' : ArcHeap Bytes} {result : Except Fault Unit}
    (view : Processed fuse buf bytes host heap (result, fuse', host', heap'))
    (ready : fuse.initDone = true) : fuse'.initDone = true := by
  cases view <;> first | exact ready | rfl

theorem processRequest_rejected (fuse : Fuse) {buf : Nat} {message rest : Bytes} (host : Host)
    {heap : ArcHeap Bytes} (filled : heap.value buf = message ++ rest)
    (bad : accepted message = none) :
    ∃ e, fuse.processRequest buf message.length host heap = (.error e, fuse, host, heap) := by
  have view := processRequest_processed fuse buf message rest host heap filled
  generalize fuse.processRequest buf message.length host heap = out at view
  cases view with
  | rejected e bad => exact ⟨e, rfl⟩
  | _ => simp_all

theorem processRequest_init {fuse : Fuse} {buf : Nat} {bytes rest : Bytes} {host : Host}
    {heap : ArcHeap Bytes} {header : FuseInHeader} {body : Bytes} {initIn : FuseInitIn}
    (filled : heap.value buf = bytes ++ rest) (good : accepted bytes = some (header, body))
    (phase : fuse.initDone = false) (request : initRequest header body = .ok initIn)
    (sent : host.next = .ok) :
    fuse.processRequest buf bytes.length host heap =
      (.ok (), { fuse with initDone := true }, host.extend [initAttempt fuse header initIn host],
        heap) := by
  rw [Fuse.processRequest, filled, (checkHeader_ok_iff bytes rest (header, body)).mpr good]
  dsimp only
  rw [if_pos (by simp [phase]), handleInit_eq, request, sent]

/-- No message makes `process_request` panic. -/
theorem processRequest_noPanic (fuse : Fuse) (buf : Nat) (bytes rest : Bytes) (host : Host)
    (heap : ArcHeap Bytes) (filled : heap.value buf = bytes ++ rest) :
    NoPanic (fuse.processRequest buf bytes.length host heap).1 := by
  have checked : NoPanic (checkHeader (bytes ++ rest) bytes.length) := by
    refine Raises.ite (fun _ => NoPanic.io) fun long => ?_
    refine Raises.bind (sliceTo_noPanic (by simp)) fun message front => ?_
    have whole : message = bytes := by
      rw [sliceTo, if_pos (by simp), List.take_left] at front
      cases front
      rfl
    refine Raises.bind (readBody_noPanic _ message) fun header _ => ?_
    refine Raises.ite (fun _ => NoPanic.io) fun _ => ?_
    exact Raises.bind (sliceFrom_noPanic (whole ▸ Nat.not_lt.mp long)) fun _ _ => Raises.ok
  unfold Fuse.processRequest
  rw [filled]
  cases outcome : checkHeader (bytes ++ rest) bytes.length with
  | error e => exact Raises.error (checked e outcome)
  | ok p =>
      dsimp only
      split
      · dsimp only
        unfold Fuse.handleInit
        dsimp only
        split
        · exact NoPanic.io
        · split
          · next e read => exact Raises.error (readBody_noPanic _ _ e read)
          · split
            · exact NoPanic.io
            · split
              · exact NoPanic.io
              · exact Raises.ok
      · unfold Fuse.serve
        dsimp only
        split
        · exact Raises.ok
        · exact dispatch_noPanic _ _ _ _ _ _ _ _

/-! ### Sequences of messages -/

/-- A message in the buffer it was read into. -/
structure Delivery where
  buf : Nat
  bytes : Bytes
  rest : Bytes
  heap : ArcHeap Bytes
  filled : heap.value buf = bytes ++ rest

/-- A message alone in a buffer. -/
def Delivery.alone (bytes : Bytes) : Delivery where
  buf := 0
  bytes := bytes
  rest := []
  heap := { value := fun _ => bytes, strong := fun _ => 1, next := 1 }
  filled := (List.append_nil bytes).symm

def Delivery.process (d : Delivery) (s : Fuse × Host) : Except Fault Unit × Fuse × Host :=
  let (result, fuse, host, _) := s.1.processRequest d.buf d.bytes.length s.2 d.heap
  (result, fuse, host)

theorem Delivery.processed (d : Delivery) (fuse : Fuse) (host : Host) :
    ∃ heap, Processed fuse d.buf d.bytes host d.heap
      ((d.process (fuse, host)).1, (d.process (fuse, host)).2.1, (d.process (fuse, host)).2.2,
        heap) := by
  have view := processRequest_processed fuse d.buf d.bytes d.rest host d.heap d.filled
  rcases whole : fuse.processRequest d.buf d.bytes.length host
    d.heap with ⟨result, fuse', host', heap⟩
  rw [whole] at view
  rw [Delivery.process, whole]
  exact ⟨heap, view⟩

/-- One message after the other. -/
def feed (s : Fuse × Host) (ds : List Delivery) : Fuse × Host :=
  ds.foldl (fun s d => (d.process s).2) s

end ProxmoxFuse
