import ProxmoxFuse.Process
import ProxmoxFuse.Stream

/-!
# What one turn of the polling loop can do

The inversion of `pollTurn`, in the order of its exits, and of the part after
the read. With `Processed` it is all that the invariants over runs look at.
-/
namespace ProxmoxFuse
namespace World

/-- Nothing is queued, the stream is open, and the watcher may be polled. -/
structure Idle (w : World) : Prop where
  queue : w.fuse.pending = []
  unfinished : w.fuse.finished = false
  watching : w.fuse.errWatcher.taken = false

/-- The watcher was polled. -/
def watch (w : World) (ready : Bool) : World :=
  observe { w with fuse.errWatcher := ⟨ready⟩ } (.watcher ready)

/-- The first queued request changes hands. -/
def yield (w : World) (r : Request) (rest : List Request) : World :=
  { w with
    fuse.pending := rest
    held := w.held ++ [(r, w.origins.headD default)]
    origins := w.origins.tail }

/-- A fresh read buffer in place of one that a `Write` still shares. -/
def swap (w : World) : World :=
  { w with
    heap := (w.heap.alloc (List.replicate READ_BUF_SIZE 0)).2.release w.fuse.buf
    fuse.buf := w.heap.next }

/-- The read was made and its result recorded. -/
def observeRead (w : World) (result : ReadResult) : World :=
  w.observe (.read w.fuse.buf result w.host.next)

end World

open World

inductive Turned (w : World) (t : Turn) : Option PollResult × World → Prop where
  | yielded (r : Request) (rest : List Request) (queue : w.fuse.pending = r :: rest) :
      Turned w t ((w.yield r rest).ret (.item (.ok r)))
  | finished (queue : w.fuse.pending = []) (stopped : w.fuse.finished = true) :
      Turned w t (w.ret .done)
  | watcherTaken (queue : w.fuse.pending = []) (unfinished : w.fuse.finished = false)
      (taken : w.fuse.errWatcher.taken = true) : Turned w t (w.ret .panicked)
  | watcherDone (idle : w.Idle) : Turned w t ((w.watch true).finish.ret .done)
  | pending (idle : w.Idle) : Turned w t ((w.watch false).ret .pending)
  | unready (idle : w.Idle) (e : IoError) :
      Turned w t (((w.watch false).observe (.unready e)).ret (.item (.error e)))
  | shared (idle : w.Idle) (none : (w.watch false).exclusive = none) :
      Turned w t ((w.watch false).ret .panicked)
  | read (idle : w.Idle) (w₁ : World) (own : (w.watch false).exclusive = some w₁) :
      Turned w t ((w₁.observeRead t.read).afterRead t.read)

theorem World.pollTurn_turned (w : World) (t : Turn) : Turned w t (w.pollTurn t) := by
  unfold World.pollTurn
  cases queue : w.fuse.pending with
  | cons r rest => exact .yielded r rest queue
  | nil =>
      dsimp only
      by_cases stopped : w.fuse.finished = true
      · rw [if_pos stopped]
        exact .finished queue stopped
      · rw [if_neg stopped]
        have unfinished : w.fuse.finished = false := by simpa using stopped
        by_cases taken : w.fuse.errWatcher.taken = true
        · rw [JoinHandle.poll, if_pos taken]
          exact .watcherTaken queue unfinished taken
        · rw [JoinHandle.poll, if_neg taken]
          have idle : w.Idle := ⟨queue, unfinished, by simpa using taken⟩
          dsimp only
          change Turned w t (if t.watcher = true then _ else _)
          cases watcher : t.watcher with
          | true => exact .watcherDone idle
          | false =>
              rw [if_neg (by simp)]
              cases readiness : t.readiness with
              | pending => exact .pending idle
              | error e => exact .unready idle e
              | ready =>
                  dsimp only
                  split
                  · next own => exact .shared idle own
                  · next w₁ own => exact .read idle w₁ own

/-- The buffer is kept if nobody shares it and swapped otherwise. -/
theorem World.exclusive_cases {w w₁ : World} (own : w.exclusive = some w₁) :
    (w₁ = w ∧ (w.heap.getMut w.fuse.buf).isSome = true) ∨
    (w₁ = w.swap ∧ (w.heap.getMut w.fuse.buf).isSome = false) := by
  unfold World.exclusive at own
  dsimp only at own
  by_cases shared : (w.heap.getMut w.fuse.buf).isNone = true
  · rw [if_pos shared] at own
    obtain ⟨_, _, same⟩ := Option.map_eq_some_iff.mp own
    exact .inr ⟨same.symm, by simpa using shared⟩
  · rw [if_neg shared] at own
    obtain ⟨_, _, same⟩ := Option.map_eq_some_iff.mp own
    exact .inl ⟨same.symm, by simpa [Option.isSome_iff_ne_none] using shared⟩

/-- The state `process` leaves behind, from what `process_request` returned. -/
def World.processed (w : World) (m : Message) (fuse : Fuse) (host : Host) (heap : ArcHeap Bytes) :
    World :=
  { w with
    fuse, host
    heap := heap.release w.fuse.buf
    origins := w.origins ++ List.replicate (fuse.pending.length - w.fuse.pending.length) m }

theorem World.fill_value (w : World) (m : Message) :
    ((w.fill m).heap.retain w.fuse.buf).value w.fuse.buf =
      m.bytes ++ (w.heap.value w.fuse.buf).drop m.bytes.length := by
  rw [ArcHeap.retain_value]
  exact ArcHeap.set_value_self ..

theorem World.process_eq {w : World} {m : Message} {result : Except Fault Unit} {fuse : Fuse}
    {host : Host} {heap : ArcHeap Bytes}
    (done : w.fuse.processRequest w.fuse.buf m.bytes.length w.host
      ((w.fill m).heap.retain w.fuse.buf) = (result, fuse, host, heap)) :
    (w.fill m).process m = (result, w.processed m fuse host heap) := by
  have done' : (w.fill m).fuse.processRequest (w.fill m).fuse.buf m.bytes.length (w.fill m).host
      ((w.fill m).heap.retain (w.fill m).fuse.buf) = (result, fuse, host, heap) := done
  simp only [World.process, done']
  rfl

theorem World.process_processed {w w' : World} {m : Message} {result : Except Fault Unit}
    (done : (w.fill m).process m = (result, w')) :
    ∃ fuse host heap, w' = w.processed m fuse host heap ∧
      Processed w.fuse w.fuse.buf m.bytes w.host ((w.fill m).heap.retain w.fuse.buf)
        (result, fuse, host, heap) := by
  have view := processRequest_processed w.fuse w.fuse.buf m.bytes _ w.host _ (w.fill_value m)
  rcases out : w.fuse.processRequest w.fuse.buf m.bytes.length w.host
    ((w.fill m).heap.retain w.fuse.buf) with ⟨result', fuse, host, heap⟩
  rw [World.process_eq out] at done
  cases done
  exact ⟨fuse, host, heap, rfl, out ▸ view⟩

/-- How a turn ends after `process_request`: an error is returned, success goes round again. -/
def World.reported (w : World) : Except Fault Unit → World
  | .ok () => w
  | .error (.io e) => w.observe (.returned (.item (.error e)))
  | .error .panic => w.observe (.returned .panicked)

/-- An idle session reads whatever the device delivers. -/
theorem World.pollTurn_read {w w₁ : World} (idle : w.Idle)
    (own : (w.watch false).exclusive = some w₁) (result : ReadResult) :
    w.pollTurn ⟨false, .ready, result⟩ = (w₁.observeRead result).afterRead result := by
  unfold World.pollTurn
  cases queue : w.fuse.pending with
  | cons r rest => simp [idle.queue] at queue
  | nil =>
      dsimp only
      rw [if_neg (by simp [idle.unfinished]), JoinHandle.poll, if_neg (by simp [idle.watching])]
      dsimp only
      rw [if_neg (by simp)]
      split
      · next none => cases own.symm.trans none
      · next w₂ same =>
          cases own.symm.trans same
          rfl

/-- In an idle session with an unshared buffer any message can come next. -/
theorem World.pollNext_message {w : World} (idle : w.Idle)
    (alone : (w.heap.getMut w.fuse.buf).isSome = true) {m : Message} (some : m.bytes.length ≠ 0)
    {result : Except Fault Unit} {fuse : Fuse} {host : Host} {heap : ArcHeap Bytes}
    (done : (w.watch false).fuse.processRequest w.fuse.buf m.bytes.length w.host
      ((w.fill m).heap.retain w.fuse.buf) = (result, fuse, host, heap)) :
    (w.pollNext [⟨false, .ready, .data m⟩]).2 =
      (((w.watch false).observeRead (.data m)).processed m fuse host heap).reported result := by
  have own : (w.watch false).exclusive = Option.some (w.watch false) := by
    have kept : ((w.watch false).heap.getMut (w.watch false).fuse.buf).isNone = false := by
      simpa [Option.isSome_iff_ne_none, World.watch, World.observe] using alone
    obtain ⟨contents, same⟩ := Option.isSome_iff_exists.mp alone
    have same' : (w.watch false).heap.getMut (w.watch false).fuse.buf = Option.some contents := same
    rw [World.exclusive, if_neg (by simp [kept]), same', Option.map_some]
  have out := World.process_eq (w := (w.watch false).observeRead (.data m)) done
  rw [World.pollNext, World.pollTurn_read idle own, World.afterRead, if_neg some, out]
  rcases result with (e | -) | - <;> rfl

/-- What the dispatcher makes of a message that is read next. -/
def World.served (w : World) (m : Message) (header : FuseInHeader) (body : Bytes) :
    Except Fault Unit × Fuse × Host × ArcHeap Bytes :=
  w.fuse.serve header body w.fuse.buf m.bytes.length w.host ((w.fill m).heap.retain w.fuse.buf)

/-- The state after such a message. -/
def World.dispatched (w : World) (m : Message) (header : FuseInHeader) (body : Bytes) : World :=
  (((w.watch false).observeRead (.data m)).processed m (w.served m header body).2.1
    (w.served m header body).2.2.1 (w.served m header body).2.2.2).reported
      (w.served m header body).1

/-- A poll that reads one message and hands out the first request made of it. -/
theorem World.pollNext_takes {w w₁ : World} (idle : w.Idle)
    (own : (w.watch false).exclusive = some w₁) (ready : w₁.fuse.initDone = true) {m : Message}
    {header : FuseInHeader} {body : Bytes} (good : accepted m.bytes = some (header, body))
    {fuse : Fuse} {host : Host} {heap : ArcHeap Bytes}
    (served : w₁.served m header body = (.ok (), fuse, host, heap)) {r : Request}
    {rest : List Request} (queued : fuse.pending = r :: rest) (t : Turn) :
    w.pollNext [⟨false, .ready, .data m⟩, t] =
      (((w₁.observeRead (.data m)).processed m fuse host heap).yield r rest).ret
        (.item (.ok r)) := by
  have some : m.bytes.length ≠ 0 := by
    intro empty
    simp [accepted, empty] at good
  have done := processRequest_serve w₁.fuse w₁.host (World.fill_value w₁ m) good ready
  have out := World.process_eq (w := w₁.observeRead (.data m)) (done.trans served)
  rw [World.pollNext, World.pollTurn_read idle own, World.afterRead, if_neg some, out]
  simp only [World.pollNext, World.pollTurn, World.processed, queued]
  rfl

section steps
variable {τ : Type} [Timeout τ] {may : ∀ r, Consume τ r → WritevResult → Prop} {w : World}
  {m : Message} {header : FuseInHeader} {body : Bytes}

/-- An idle session whose INIT is over reads and dispatches one message. -/
theorem Step.reads (live : w.live = true) (idle : w.Idle)
    (alone : (w.heap.getMut w.fuse.buf).isSome = true) (ready : w.fuse.initDone = true)
    (good : accepted m.bytes = some (header, body)) :
    Step τ may w (w.dispatched m header body) := by
  have some : m.bytes.length ≠ 0 := by
    intro empty
    simp [accepted, empty] at good
  -- the watcher is where it was
  have same : (w.watch false).fuse = w.fuse := by
    have kept : w.fuse.errWatcher = ⟨false⟩ := congrArg JoinHandle.mk idle.watching
    change { w.fuse with errWatcher := ⟨false⟩ } = w.fuse
    rw [← kept]
  have done := processRequest_serve (w.watch false).fuse w.host (World.fill_value w m) good ready
  have read := World.pollNext_message idle alone some (done.trans (by rw [same]))
  rw [World.dispatched]
  exact read ▸ .poll _ live _

/-- It reads one message, in the buffer of `w₁`, and hands out a request made of it. -/
theorem Step.takes {w₁ : World} (live : w.live = true) (idle : w.Idle)
    (own : (w.watch false).exclusive = some w₁) (ready : w₁.fuse.initDone = true)
    (good : accepted m.bytes = some (header, body)) {fuse : Fuse} {host : Host}
    {heap : ArcHeap Bytes} (served : w₁.served m header body = (.ok (), fuse, host, heap))
    {r : Request} {rest : List Request} (queued : fuse.pending = r :: rest) :
    Step τ may w
      (((w₁.observeRead (.data m)).processed m fuse host heap).yield r rest
        |>.ret (.item (.ok r))).2 := by
  have polled :=
    World.pollNext_takes idle own ready good served queued ⟨false, .pending, .error EAGAIN⟩
  exact congrArg Prod.snd polled ▸ .poll _ live _

/-- The first message of a session whose INIT is over. -/
theorem World.mounted_reads (τ : Type) [Timeout τ] (may : ∀ r, Consume τ r → WritevResult → Prop)
    (ops : EnabledOps) (outcome : Nat → WritevResult) (pageSize : Int64)
    (good : accepted m.bytes = some (header, body)) :
    ReachesBy τ may (mounted ops true outcome pageSize)
      ((mounted ops true outcome pageSize).dispatched m header body) :=
  .single (.reads rfl ⟨rfl, rfl, rfl⟩ rfl rfl good)

/-- The consumer gives up the one request that it holds. -/
theorem Step.gives {r : Request} (held : w.held = [(r, m)]) (c : Consume τ r)
    (allowed : may r c w.host.next) :
    Step τ may w (w.consume [] r c) :=
  .consume w [] [] r m held c allowed

end steps

inductive AfterRead (w : World) : ReadResult → Option PollResult × World → Prop where
  | again : AfterRead w (.error EAGAIN) (none, w)
  | closed (errno : Int32) (gone : errno = ENODEV ∨ errno = ECONNABORTED) :
      AfterRead w (.error errno) (w.finish.ret .done)
  | failed (errno : Int32) (real : errno ≠ EAGAIN)
      (present : ¬ (errno = ENODEV ∨ errno = ECONNABORTED)) :
      AfterRead w (.error errno) (w.ret (.item (.error (.os errno))))
  | eof (m : Message) (empty : m.bytes.length = 0) : AfterRead w (.data m) (w.finish.ret .done)
  | accepted (m : Message) (some : m.bytes.length ≠ 0) (w' : World)
      (ok : (w.fill m).process m = (.ok (), w')) : AfterRead w (.data m) (none, w')
  | refused (m : Message) (some : m.bytes.length ≠ 0) (w' : World) (e : IoError)
      (err : (w.fill m).process m = (.error (.io e), w')) :
      AfterRead w (.data m) (w'.ret (.item (.error e)))
  | panicked (m : Message) (some : m.bytes.length ≠ 0) (w' : World)
      (err : (w.fill m).process m = (.error .panic, w')) : AfterRead w (.data m) (w'.ret .panicked)

theorem World.afterRead_cases (w : World) (result : ReadResult) :
    AfterRead w result (w.afterRead result) := by
  cases result with
  | error errno =>
      simp only [World.afterRead]
      by_cases again : errno = EAGAIN
      · subst again
        exact .again
      · rw [if_neg again]
        by_cases gone : errno = ENODEV ∨ errno = ECONNABORTED
        · rw [if_pos gone]
          exact .closed errno gone
        · rw [if_neg gone]
          exact .failed errno again gone
  | data m =>
      simp only [World.afterRead]
      by_cases empty : m.bytes.length = 0
      · rw [if_pos empty]
        exact .eof m empty
      · rw [if_neg empty]
        rcases done : (w.fill m).process m with ⟨_ | _, w'⟩
        · rename_i fault
          cases fault with
          | io e => exact .refused m empty w' e done
          | panic => exact .panicked m empty w' done
        · exact .accepted m empty w' done

/-! ### The same, up to what replies depend on -/

def Obs.message? : Obs → Option Message
  | .read _ (.data m) _ => some m
  | _ => none

/-- The messages read in the course of a run. -/
def messages (trace : List Obs) : List Message := trace.filterMap Obs.message?

@[simp] theorem messages_append (trace trace' : List Obs) :
    messages (trace ++ trace') = messages trace ++ messages trace' := List.filterMap_append

@[simp] theorem World.observe_trace (w : World) (o : Obs) : (w.observe o).trace = w.trace ++ [o] :=
  rfl

section
variable (rest : List Obs)

@[simp] theorem messages_nil : messages [] = [] := rfl

@[simp] theorem messages_returned (result : PollResult) :
    messages (.returned result :: rest) = messages rest := rfl

@[simp] theorem messages_watcher (ready : Bool) :
    messages (.watcher ready :: rest) = messages rest := rfl

@[simp] theorem messages_unready (e : IoError) : messages (.unready e :: rest) = messages rest :=
  rfl

@[simp] theorem messages_read_error (buf : Nat) (errno : Int32) (o : WritevResult) :
    messages (.read buf (.error errno) o :: rest) = messages rest := rfl

@[simp] theorem messages_read_data (buf : Nat) (m : Message) (o : WritevResult) :
    messages (.read buf (.data m) o :: rest) = m :: messages rest := rfl

end

/-- The requests that exist, queued or held. -/
def World.requests (w : World) : List Request := w.fuse.pending ++ w.held.map Prod.fst

/-- Nothing was read or written, and the same requests exist. -/
structure World.Quiet (w w' : World) : Prop where
  trace : messages w'.trace = messages w.trace
  requests : w'.requests.Perm w.requests
  host : w'.host = w.host
  init : w'.fuse.initDone = w.fuse.initDone

/-- `w'` differs from `w` by the processing of `m`. -/
def World.Handles (w : World) (m : Message) (w' : World) : Prop :=
  ∃ buf heap result fuse host heap', messages w'.trace = messages w.trace ++ [m] ∧
    w'.held = w.held ∧
    w'.fuse = fuse ∧ w'.host = host ∧ Processed w.fuse buf m.bytes w.host heap
      (result, fuse, host, heap')

inductive TurnEffect (w : World) : World → Prop where
  | quiet {w' : World} (same : w.Quiet w') : TurnEffect w w'
  | empty (m : Message) (bad : accepted m.bytes = none) (w₁ : World) (same : w.Quiet w₁)
      {trace : List Obs} (read : messages trace = messages w₁.trace ++ [m]) :
      TurnEffect w { w₁ with trace }
  | message (m : Message) (w₁ : World) (same : w.Quiet w₁) {w' : World}
      (handled : w₁.Handles m w') :
      TurnEffect w w'

/-- Making the buffer exclusive touches nothing but the buffers. -/
theorem World.exclusive_quiet {w w₁ : World} (own : w.exclusive = some w₁) : w.Quiet w₁ := by
  obtain ⟨rfl, -⟩ | ⟨rfl, -⟩ := World.exclusive_cases own
  · exact ⟨rfl, .refl _, rfl, rfl⟩
  · exact ⟨rfl, .refl _, rfl, rfl⟩

theorem World.pollTurn_effect (w : World) (t : Turn) : TurnEffect w (w.pollTurn t).2 := by
  have view := w.pollTurn_turned t
  generalize w.pollTurn t = out at view
  cases view with
  | yielded r rest queue =>
      refine .quiet ⟨by simp [World.ret, World.yield], ?_, rfl, rfl⟩
      simp only [World.requests, World.ret, World.yield, World.observe, queue, List.map_append,
        List.map_cons, List.map_nil, ← List.append_assoc]
      exact List.perm_append_singleton _ _
  | finished queue stopped => exact .quiet ⟨by simp [World.ret], .refl _, rfl, rfl⟩
  | watcherTaken queue unfinished taken => exact .quiet ⟨by simp [World.ret], .refl _, rfl, rfl⟩
  | watcherDone idle =>
      exact .quiet ⟨by simp [World.ret, World.watch, World.finish], .refl _, rfl, rfl⟩
  | pending idle => exact .quiet ⟨by simp [World.ret, World.watch], .refl _, rfl, rfl⟩
  | unready idle e => exact .quiet ⟨by simp [World.ret, World.watch], .refl _, rfl, rfl⟩
  | shared idle none => exact .quiet ⟨by simp [World.ret, World.watch], .refl _, rfl, rfl⟩
  | read idle w₁ own =>
      have alone := World.exclusive_quiet own
      have same : w.Quiet w₁ :=
        ⟨by simp [alone.trace, World.watch], alone.requests, alone.host, alone.init⟩
      have view := World.afterRead_cases (w₁.observeRead t.read) t.read
      generalize t.read = result at view ⊢
      generalize (w₁.observeRead result).afterRead result = out at view
      cases view with
      | again =>
          exact .quiet ⟨by simp [World.observeRead, same.trace], same.requests, same.host,
            same.init⟩
      | closed errno gone =>
          exact .quiet ⟨by simp [World.observeRead, World.ret, World.finish, same.trace],
            same.requests, same.host, same.init⟩
      | failed errno real present =>
          exact .quiet ⟨by simp [World.observeRead, World.ret, same.trace], same.requests,
            same.host, same.init⟩
      | eof m empty =>
          refine .empty m (by simp [accepted, empty]) w₁.finish
            ⟨same.trace, same.requests, same.host, same.init⟩ ?_
          simp [World.observeRead, World.finish]
      | accepted m some w' done =>
          obtain ⟨fuse, host, heap, rfl, view⟩ := World.process_processed done
          exact .message m w₁ same ⟨_, _, _, _, _, _, by simp [World.observeRead, World.processed],
            rfl, rfl, rfl, view⟩
      | refused m some w' e done =>
          obtain ⟨fuse, host, heap, rfl, view⟩ := World.process_processed done
          exact .message m w₁ same ⟨_, _, _, _, _, _,
            by simp [World.observeRead, World.processed, World.ret], rfl, rfl, rfl, view⟩
      | panicked m some w' done =>
          obtain ⟨fuse, host, heap, rfl, view⟩ := World.process_processed done
          exact .message m w₁ same ⟨_, _, _, _, _, _,
            by simp [World.observeRead, World.processed, World.ret], rfl, rfl, rfl, view⟩

end ProxmoxFuse
