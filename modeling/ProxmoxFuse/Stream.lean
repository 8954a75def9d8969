import ProxmoxFuse.Session

/-!
# The stream and its consumer

`poll_next` and the runs of a mounted session. The environment chooses, for
every turn of the polling loop, whether the watcher has finished, whether the
descriptor is ready and what the read returns; between polls the consumer uses
and gives up the requests it was handed, in any order, and may drop the `Fuse`.
Besides the program's own state a `World` keeps the history that the properties
speak about: what was observed at the descriptor and what was returned, and the
message every request was parsed from.
-/
namespace ProxmoxFuse

/-- What one read can deliver: no more than the buffer it reads into. -/
structure Message where
  bytes : Bytes
  fits : bytes.length ≤ READ_BUF_SIZE

instance : Inhabited Message := ⟨⟨[], Nat.zero_le _⟩⟩

/-- A read of zero bytes is the end of the file. -/
inductive ReadResult where
  | data (message : Message)
  | error (errno : Int32)

/-- `poll_read_ready`. -/
inductive Readiness where
  | pending
  | error (error : IoError)
  | ready

/-- The environment's choices for one turn of the loop in `poll_next`. -/
structure Turn where
  watcher : Bool
  readiness : Readiness
  read : ReadResult

inductive PollResult where
  | pending
  | done
  | item (item : Except IoError Request)
  | panicked

/-- What can be observed of a poll: a poll of the watcher, a failed readiness
poll, a read into a buffer (with the answer the next `writev` will get), and the
value `poll_next` returns. -/
inductive Obs where
  | watcher (ready : Bool)
  | unready (error : IoError)
  | read (buf : Nat) (result : ReadResult) (next : WritevResult)
  | returned (result : PollResult)

structure World where
  fuse : Fuse
  live : Bool
  host : Host
  heap : ArcHeap Bytes
  /-- The requests the consumer owns, each with the message it came from. -/
  held : List (Request × Message)
  /-- The messages the queued requests came from. -/
  origins : List Message
  trace : List Obs

/-- Polling a `JoinHandle` whose result was already taken panics. -/
def JoinHandle.poll (self : JoinHandle) (ready : Bool) : Option (Bool × JoinHandle) :=
  if self.taken then none else some (ready, ⟨ready⟩)

namespace World

def observe (w : World) (o : Obs) : World := { w with trace := w.trace ++ [o] }

def finish (w : World) : World := { w with fuse.finished := true }

/-- `return Poll::...`. -/
def ret (w : World) (result : PollResult) : Option PollResult × World :=
  (some result, w.observe (.returned result))

/-- Make the read buffer exclusive, with a fresh one if a `Write` still shares
the old one; `none` is the failing `unwrap`. -/
def exclusive (w : World) : Option World :=
  let w := if (w.heap.getMut w.fuse.buf).isNone then
      let (buf, heap) := w.heap.alloc (List.replicate READ_BUF_SIZE 0)
      { w with heap := heap.release w.fuse.buf, fuse.buf := buf }
    else w
  (w.heap.getMut w.fuse.buf).map fun _ => w

/-- `libc::read` puts the message at the front of the buffer. -/
def fill (w : World) (m : Message) : World :=
  { w with
    heap := w.heap.set w.fuse.buf (m.bytes ++ (w.heap.value w.fuse.buf).drop m.bytes.length) }

/-- `process_request` on the message just read; the clone of the buffer taken for
it is dropped at the end of the turn. -/
def process (w : World) (m : Message) : Except Fault Unit × World :=
  let buf := w.fuse.buf
  let (result, fuse, host, heap) :=
    w.fuse.processRequest buf m.bytes.length w.host (w.heap.retain buf)
  let queued := fuse.pending.length - w.fuse.pending.length
  (result, { w with
    fuse, host
    heap := heap.release buf
    origins := w.origins ++ List.replicate queued m })

/-- The rest of a turn after the read. -/
def afterRead (w : World) : ReadResult → Option PollResult × World
  | .error errno =>
      -- `try_io` turns EAGAIN into "not ready" and the loop polls again
      if errno = EAGAIN then (none, w)
      else if errno = ENODEV ∨ errno = ECONNABORTED then w.finish.ret .done
      else w.ret (.item (.error (.os errno)))
  | .data m =>
      if m.bytes.length = 0 then w.finish.ret .done
      else
        match (w.fill m).process m with
        | (.ok (), w) => (none, w)
        | (.error (.io e), w) => w.ret (.item (.error e))
        | (.error .panic, w) => w.ret .panicked

/-- One turn of the loop; `none` goes round again. -/
def pollTurn (w : World) (t : Turn) : Option PollResult × World :=
  match w.fuse.pending with
  | request :: rest =>
      ret { w with
        fuse.pending := rest
        held := w.held ++ [(request, w.origins.headD default)]
        origins := w.origins.tail } (.item (.ok request))
  | [] =>
      if w.fuse.finished then w.ret .done
      else
        match w.fuse.errWatcher.poll t.watcher with
        | none => w.ret .panicked
        | some (ready, handle) =>
            let w := observe { w with fuse.errWatcher := handle } (.watcher ready)
            if ready then w.finish.ret .done
            else
              match t.readiness with
              | .pending => w.ret .pending
              | .error e => (w.observe (.unready e)).ret (.item (.error e))
              | .ready =>
                  match w.exclusive with
                  | none => w.ret .panicked
                  | some w => (w.observe (.read w.fuse.buf t.read w.host.next)).afterRead t.read

/-- `poll_next` under the environment's choices for its turns; with no turns left
the call is still looping. -/
def pollNext (w : World) : List Turn → Option PollResult × World
  | [] => (none, w)
  | t :: turns =>
      match w.pollTurn t with
      | (some result, w) => (some result, w)
      | (none, w) => pollNext w turns

/-- `FusedStream::is_terminated`. -/
def isTerminated (w : World) : Bool := w.fuse.finished

/-- Giving up a request in one of the consumer's ways. -/
def consume {τ : Type} [Timeout τ] (w : World) (others : List (Request × Message)) (r : Request)
    (c : Consume τ r) : World :=
  { w with held := others, host := c.run w.host, heap := r.releaseBuffer w.heap }

/-- `Drop for Fuse` and its fields: the buffer, then the queued requests in order. -/
def dropFuse (w : World) : World :=
  { w with
    live := false
    host := w.fuse.pending.foldl (fun host r => r.drop host) w.host
    heap := w.fuse.pending.foldl (fun heap r => r.releaseBuffer heap) (w.heap.release w.fuse.buf)
    fuse.pending := []
    origins := [] }

/-- `FuseSession::mount`, from `initDone = false`; a session whose INIT is over
starts with `initDone = true`. -/
def mounted (ops : EnabledOps) (initDone : Bool) (outcome : Nat → WritevResult) (pageSize : Int64) :
    World where
  fuse :=
    { ops
      buf := 0
      pending := []
      initDone
      finished := false
      errWatcher := ⟨false⟩ }
  live := true
  host := { outcome, pageSize, log := [] }
  heap :=
    { value := fun _ => List.replicate READ_BUF_SIZE 0
      strong := fun i => if i = 0 then 1 else 0
      next := 1 }
  held := []
  origins := []
  trace := []

end World

/-- One step of a run: a poll (or the part of it the turns cover), or an action of
the consumer on a request it holds, or dropping the `Fuse`. The consumer may be
kept to some ways of giving requests up, by what the next `writev` will answer. -/
inductive Step (τ : Type) [Timeout τ] (may : ∀ r, Consume τ r → WritevResult → Prop) :
    World → World → Prop where
  | poll (w : World) (live : w.live = true) (turns : List Turn) : Step τ may w (w.pollNext turns).2
  | call (w : World) (front back : List (Request × Message)) (r : Request) (m : Message)
      (split : w.held = front ++ (r, m) :: back) (c : Call τ r) :
      Step τ may w { w with held := front ++ (c.after, m) :: back }
  | consume (w : World) (front back : List (Request × Message)) (r : Request) (m : Message)
      (split : w.held = front ++ (r, m) :: back) (c : Consume τ r) (allowed : may r c w.host.next) :
      Step τ may w (w.consume (front ++ back) r c)
  | dropFuse (w : World) (live : w.live = true) : Step τ may w w.dropFuse

/-- The runs of a session whose consumer keeps to `may`. -/
abbrev ReachesBy (τ : Type) [Timeout τ] (may : ∀ r, Consume τ r → WritevResult → Prop) :
    World → World → Prop := Relation.ReflTransGen (Step τ may)

/-- The runs of a session, whatever the consumer does. -/
abbrev Reaches (τ : Type) [Timeout τ] : World → World → Prop := ReachesBy τ fun _ _ _ => True

/-- What every turn preserves, a poll preserves. -/
theorem World.pollNext_induct {P : World → Prop} (turn : ∀ w t, P w → P (w.pollTurn t).2)
    (w : World) (turns : List Turn) (start : P w) : P (w.pollNext turns).2 := by
  induction turns generalizing w with
  | nil => exact start
  | cons t turns ih =>
      have one := turn w t start
      unfold World.pollNext
      split
      · next result w' same => rwa [same] at one
      · next w' same =>
          rw [same] at one
          exact ih w' one

/-- What every step preserves, a run preserves. -/
theorem run_induct {τ : Type} [Timeout τ] {may : ∀ r, Consume τ r → WritevResult → Prop}
    {P : World → Prop} {w₀ w : World}
    (step : ∀ w w', ReachesBy τ may w₀ w → P w → Step τ may w w' → P w') (start : P w₀)
    (run : ReachesBy τ may w₀ w) : P w := by
  induction run with
  | refl => exact start
  | tail before last ih => exact step _ _ before ih last

end ProxmoxFuse
