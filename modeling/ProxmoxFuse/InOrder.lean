import ProxmoxFuse.Termination

/-!
# The stream is the parse of what was read

`parse` is what one message contributes on its own: `process_request` run on a
session with an empty queue. What polls return is compared with the parses of the
messages in the order they were read; the difference is always the queue.
-/
namespace ProxmoxFuse

abbrev Item := Except IoError Request

/-- The item an error of `process_request` becomes. -/
def errorItem : Except Fault Unit → List Item
  | .error (.io e) => [.error e]
  | _ => []

/-- The items one message contributes, and whether INIT is done after it. INIT itself
contributes an error if its reply cannot be written, which `next` decides; the page
size only shapes that reply. -/
def parse (ops : EnabledOps) (initDone : Bool) (buf : Nat) (next : WritevResult)
    (m : Message) : List Item × Bool :=
  let fuse : Fuse :=
    { ops, buf, pending := [], initDone, finished := false, errWatcher := ⟨false⟩ }
  let host : Host := { outcome := fun _ => next, pageSize := 4096, log := [] }
  let heap : ArcHeap Bytes := { value := fun _ => m.bytes, strong := fun _ => 1, next := buf + 1 }
  let (result, fuse, _, _) := fuse.processRequest buf m.bytes.length host heap
  (fuse.pending.map .ok ++ errorItem result, fuse.initDone)

/-- The items one observation accounts for. -/
def Obs.items (ops : EnabledOps) (initDone : Bool) : Obs → List Item × Bool
  | .read buf (.data m) next =>
      if m.bytes.length = 0 then ([], initDone) else parse ops initDone buf next m
  | .read _ (.error errno) _ =>
      if errno = EAGAIN ∨ errno = ENODEV ∨ errno = ECONNABORTED then ([], initDone)
      else ([.error (.os errno)], initDone)
  | .unready e => ([.error e], initDone)
  | _ => ([], initDone)

/-- The concatenation over a history, with the phase it leaves. -/
def contributions (ops : EnabledOps) (initDone : Bool) (trace : List Obs) : List Item × Bool :=
  trace.foldl (fun (items, phase) o =>
    let (more, phase) := o.items ops phase
    (items ++ more, phase)) ([], initDone)

def PollResult.item? : PollResult → Option Item
  | .item value => some value
  | _ => none

def Obs.yielded? : Obs → Option Item
  | .returned result => result.item?
  | _ => none

/-- The items polls returned. -/
def yielded (trace : List Obs) : List Item := trace.filterMap Obs.yielded?

theorem contributions_append (ops : EnabledOps) (initDone : Bool) (trace more : List Obs) :
    contributions ops initDone (trace ++ more) =
      ((contributions ops initDone trace).1 ++
        (contributions ops (contributions ops initDone trace).2 more).1,
        (contributions ops (contributions ops initDone trace).2 more).2) := by
  have start : ∀ (items : List Item) (phase : Bool), more.foldl (fun (items, phase) o =>
      let (more, phase) := o.items ops phase
      (items ++ more, phase)) (items, phase) =
        (items ++ (contributions ops phase more).1, (contributions ops phase more).2) := by
    induction more with
    | nil => simp [contributions]
    | cons o more ih =>
        intro items phase
        simp only [contributions, List.foldl_cons, List.nil_append] at ih ⊢
        rw [ih, ih (o.items ops phase).1]
        simp
  rw [contributions, List.foldl_append]
  exact start _ _

theorem contributions_returned (ops : EnabledOps) (initDone : Bool) (returned : List PollResult) :
    contributions ops initDone (returned.map .returned) = ([], initDone) := by
  induction returned with
  | nil => rfl
  | cons result rest ih => exact ih

@[simp] theorem yielded_append (trace trace' : List Obs) :
    yielded (trace ++ trace') = yielded trace ++ yielded trace' := List.filterMap_append

/-! ### A message is parsed on its own -/

theorem queueOne_local {guard : RequestGuard} {heap heap' : ArcHeap Bytes}
    {built built' : Except Fault (Request × ArcHeap Bytes)}
    (same : built.map Prod.fst = built'.map Prod.fst) :
    (queueOne guard heap built).result = (queueOne guard heap' built').result ∧
      (queueOne guard heap built).pushed = (queueOne guard heap' built').pushed := by
  cases built with
  | error e =>
      cases built' with
      | error e' => cases same; exact ⟨rfl, rfl⟩
      | ok p' => cases same
  | ok p =>
      cases built' with
      | error e' => cases same
      | ok p' =>
          have first : p.1 = p'.1 := Except.ok.inj same
          simp [queueOne, first]

theorem guarded_local {guard : RequestGuard} {heap heap' : ArcHeap Bytes}
    {built built' : Except Fault (Request × ArcHeap Bytes)} {enabled : Bool}
    (same : built.map Prod.fst = built'.map Prod.fst) :
    (if enabled then queueOne guard heap built else unserved guard heap).result =
        (if enabled then queueOne guard heap' built' else unserved guard heap').result ∧
      (if enabled then queueOne guard heap built else unserved guard heap).pushed =
        (if enabled then queueOne guard heap' built' else unserved guard heap').pushed := by
  cases enabled with
  | false => exact ⟨rfl, rfl⟩
  | true => exact queueOne_local same

section congruence
variable {ε α β γ : Type}

theorem map_bind_congr {x : Except ε α} {f f' : α → Except ε β} {g : β → γ}
    (same : ∀ a, (f a).map g = (f' a).map g) : (x >>= f).map g = (x >>= f').map g := by
  cases x with
  | error e => rfl
  | ok a => exact same a

theorem map_ite_congr {p : Prop} [Decidable p] {x x' y y' : Except ε β} {g : β → γ}
    (yes : x.map g = x'.map g) (no : y.map g = y'.map g) :
    (if p then x else y).map g = (if p then x' else y').map g := by
  split
  · exact yes
  · exact no

end congruence

/-- What an arm returns and queues does not depend on the state of the buffers. -/
theorem dispatch_local (ops : EnabledOps) (header : FuseInHeader) (body : Bytes) (buf nbytes : Nat)
    (guard : RequestGuard) (heap heap' : ArcHeap Bytes) (o : Opcode) :
    (dispatch ops header body buf nbytes guard heap o).result =
        (dispatch ops header body buf nbytes guard heap' o).result ∧
      (dispatch ops header body buf nbytes guard heap o).pushed =
        (dispatch ops header body buf nbytes guard heap' o).pushed := by
  cases o with
  | destroy | interrupt | init => exact ⟨rfl, rfl⟩
  | lookup | getattr | statfs | readlink | unlink | rmdir => exact guarded_local rfl
  | setattr | «open» | release | read | readdir | readdirplus =>
      exact guarded_local (map_bind_congr fun _ => rfl)
  | mknod | mkdir | create | rename2 =>
      exact guarded_local (map_bind_congr fun _ => map_bind_congr fun _ => rfl)
  | write => exact guarded_local (map_bind_congr fun _ => map_ite_congr rfl (map_ite_congr rfl rfl))
  | listxattr => exact guarded_local (map_bind_congr fun _ => map_ite_congr rfl rfl)
  | getxattr =>
      exact guarded_local (map_bind_congr fun _ => map_bind_congr fun _ => map_ite_congr rfl rfl)
  | forget =>
      simp only [dispatch]
      cases readBody FuseForgetIn body with
      | error e => exact ⟨rfl, rfl⟩
      | ok forgetIn =>
          cases ops.forget with
          | false => exact ⟨rfl, rfl⟩
          | true => exact ⟨rfl, rfl⟩
  | batchForget =>
      simp only [dispatch]
      cases ops.forget with
      | false => exact ⟨rfl, rfl⟩
      | true =>
          cases readBody FuseBatchForgetIn body with
          | error e => exact ⟨rfl, rfl⟩
          | ok batchIn => exact ⟨rfl, rfl⟩

theorem serve_local (fuse fuse' : Fuse) (header : FuseInHeader) (body : Bytes) (buf nbytes : Nat)
    (host host' : Host) (heap heap' : ArcHeap Bytes) (ops : fuse.ops = fuse'.ops)
    (queue : fuse.pending = fuse'.pending) :
    (fuse.serve header body buf nbytes host heap).1 =
      (fuse'.serve header body buf nbytes host' heap').1 ∧
      (fuse.serve header body buf nbytes host heap).2.1.pending =
        (fuse'.serve header body buf nbytes host' heap').2.1.pending := by
  unfold Fuse.serve
  cases Opcode.fromU32 header.opcode with
  | none => exact ⟨rfl, queue⟩
  | some o =>
      have same :=
        dispatch_local fuse'.ops header body buf nbytes (RequestGuard.new header.unique)
          heap heap' o
      simp only [ops, queue, same, and_self]

theorem serve_initDone (fuse : Fuse) (header : FuseInHeader) (body : Bytes) (buf nbytes : Nat)
    (host : Host) (heap : ArcHeap Bytes) :
    (fuse.serve header body buf nbytes host heap).2.1.initDone = fuse.initDone := by
  unfold Fuse.serve
  cases Opcode.fromU32 header.opcode with
  | none => rfl
  | some o => rfl

theorem handleInit_local (fuse fuse' : Fuse) (header : FuseInHeader) (body : Bytes)
    (host host' : Host) (queue : fuse.pending = fuse'.pending)
    (init : fuse.initDone = fuse'.initDone) (next : host.next = host'.next) :
    (fuse.handleInit header body host).1 = (fuse'.handleInit header body host').1 ∧
      (fuse.handleInit header body host).2.1.pending =
        (fuse'.handleInit header body host').2.1.pending ∧
      (fuse.handleInit header body host).2.1.initDone =
        (fuse'.handleInit header body host').2.1.initDone := by
  rw [handleInit_eq, handleInit_eq, next]
  cases initRequest header body with
  | error e => exact ⟨rfl, queue, init⟩
  | ok initIn =>
      cases host'.next with
      | ok => exact ⟨rfl, queue, rfl⟩
      | err errno => exact ⟨rfl, queue, init⟩

/-- The result, the queue and the phase after a message depend on the message, the
operations, the phase before it and the outcome of one `writev`. -/
theorem processRequest_local (fuse fuse' : Fuse) (buf : Nat) (bytes rest rest' : Bytes)
    (host host' : Host) (heap heap' : ArcHeap Bytes) (filled : heap.value buf = bytes ++ rest)
    (filled' : heap'.value buf = bytes ++ rest') (ops : fuse.ops = fuse'.ops)
    (queue : fuse.pending = fuse'.pending) (init : fuse.initDone = fuse'.initDone)
    (next : host.next = host'.next) :
    (fuse.processRequest buf bytes.length host heap).1 =
        (fuse'.processRequest buf bytes.length host' heap').1 ∧
      (fuse.processRequest buf bytes.length host heap).2.1.pending =
        (fuse'.processRequest buf bytes.length host' heap').2.1.pending ∧
      (fuse.processRequest buf bytes.length host heap).2.1.initDone =
        (fuse'.processRequest buf bytes.length host' heap').2.1.initDone := by
  have checked : checkHeader (bytes ++ rest) bytes.length =
      checkHeader (bytes ++ rest') bytes.length := by
    have front : ∀ rest, sliceTo (bytes ++ rest) bytes.length = .ok bytes := by
      intro rest
      rw [sliceTo, if_pos (by simp), List.take_left]
    simp only [checkHeader, front]
  unfold Fuse.processRequest
  rw [filled, filled', checked]
  cases checkHeader (bytes ++ rest') bytes.length with
  | error e => exact ⟨rfl, queue, init⟩
  | ok p =>
      dsimp only
      rw [init]
      split
      · exact handleInit_local fuse fuse' p.1 p.2 host host' queue init next
      · have same := serve_local fuse fuse' p.1 p.2 buf bytes.length host host' heap heap' ops queue
        refine ⟨same.1, same.2, ?_⟩
        rw [serve_initDone, serve_initDone, init]

/-! ### Runs -/

/-- What was returned and what is queued is what the history contributes. -/
structure InOrder (ops : EnabledOps) (initDone : Bool) (w : World) : Prop where
  operations : w.fuse.ops = ops
  phase : (contributions ops initDone w.trace).2 = w.fuse.initDone
  front : yielded w.trace <+: (contributions ops initDone w.trace).1
  queue : w.live = true →
    yielded w.trace ++ w.fuse.pending.map .ok = (contributions ops initDone w.trace).1
  reads : ∀ earlier buf result next later, w.trace = earlier ++ .read buf result next :: later →
    yielded earlier = (contributions ops initDone earlier).1

theorem mounted_inOrder (ops : EnabledOps) (initDone : Bool) (outcome : Nat → WritevResult)
    (pageSize : Int64) :
    InOrder ops initDone (World.mounted ops initDone outcome pageSize) where
  operations := rfl
  phase := rfl
  front := List.prefix_refl _
  queue _ := rfl
  reads := by simp [World.mounted]

section
variable {ops : EnabledOps} {initDone : Bool} {w w' : World}

/-- Changes that no observation is needed for. -/
theorem InOrder.frame (h : InOrder ops initDone w) (trace : w'.trace = w.trace)
    (operations : w'.fuse.ops = w.fuse.ops) (init : w'.fuse.initDone = w.fuse.initDone)
    (queue : w'.live = true → w.live = true ∧ w'.fuse.pending = w.fuse.pending) :
    InOrder ops initDone w' where
  operations := operations.trans h.operations
  phase := by rw [trace, init, h.phase]
  front := by rw [trace]; exact h.front
  queue live := by
    obtain ⟨before, same⟩ := queue live
    rw [trace, same]
    exact h.queue before
  reads := by rw [trace]; exact h.reads

/-- One more observation and what is returned for it, which account for what the
queue gained. -/
theorem InOrder.extend (h : InOrder ops initDone w) (live : w.live = true) (o : Obs)
    (returned : List PollResult) {items : List Item}
    (accounts : o.items ops w.fuse.initDone = (items, w'.fuse.initDone))
    (trace : w'.trace = w.trace ++ o :: returned.map .returned)
    (operations : w'.fuse.ops = w.fuse.ops) (queue : w.fuse.pending.map .ok ++ items =
      yielded (o :: returned.map .returned) ++ w'.fuse.pending.map .ok)
    (read : ∀ buf result next, o = .read buf result next → w.fuse.pending = []) :
    InOrder ops initDone w' := by
  have gained : contributions ops w.fuse.initDone (o :: returned.map .returned) =
      (items, w'.fuse.initDone) := by
    rw [← List.singleton_append, contributions_append, contributions_returned]
    simp [contributions, accounts]
  have all : yielded w'.trace ++ w'.fuse.pending.map .ok =
      (contributions ops initDone w'.trace).1 := by
    rw [trace, yielded_append, List.append_assoc, ← queue, contributions_append, ← h.queue live,
      h.phase, gained, List.append_assoc]
  refine ⟨operations.trans h.operations, ?_, ⟨_, all⟩, fun _ => all, ?_⟩
  · rw [trace, contributions_append, h.phase, gained]
  · intro earlier buf result next later split
    -- a read is either an old one or the first of the new observations
    have here : earlier = w.trace → o = .read buf result next →
        yielded earlier = (contributions ops initDone earlier).1 := by
      intro same first
      have before := h.queue live
      rwa [read buf result next first, List.map_nil, List.append_nil, ← same] at before
    rw [trace, List.append_eq_append_iff] at split
    rcases split with ⟨between, same, rest⟩ | ⟨between, same, rest⟩
    · cases between with
      | nil => exact here (by simpa using same) (List.cons.inj rest).1
      | cons x between =>
          have inside : Obs.read buf result next ∈ returned.map Obs.returned := by
            simp [(List.cons.inj rest).2]
          simp at inside
    · cases between with
      | nil => exact here (by simpa using same.symm) (List.cons.inj rest).1.symm
      | cons x between =>
          rw [← (List.cons.inj rest).1] at same
          exact h.reads earlier buf result next between same

/-- The parse of a message is what processing it in an idle session adds. -/
theorem parse_eq (idle : w.Idle) (operations : w.fuse.ops = ops) {m : Message}
    (some : m.bytes.length ≠ 0) {result : Except Fault Unit}
    (done : (w.fill m).process m = (result, w')) :
    (Obs.read w.fuse.buf (.data m) w.host.next).items ops w.fuse.initDone =
      (w'.fuse.pending.map .ok ++ errorItem result, w'.fuse.initDone) := by
  rcases out : w.fuse.processRequest w.fuse.buf m.bytes.length w.host
    ((w.fill m).heap.retain w.fuse.buf) with ⟨result', fuse, host, heap⟩
  rw [World.process_eq out] at done
  obtain ⟨rfl, rfl⟩ := Prod.ext_iff.mp done
  obtain ⟨result, queue, phase⟩ := processRequest_local
    { ops, buf := w.fuse.buf, pending := [], initDone := w.fuse.initDone, finished := false
      errWatcher := ⟨false⟩ } w.fuse w.fuse.buf m.bytes []
    ((w.heap.value w.fuse.buf).drop m.bytes.length)
    { outcome := fun _ => w.host.next, pageSize := 4096, log := [] } w.host
    { value := fun _ => m.bytes, strong := fun _ => 1, next := w.fuse.buf + 1 }
    ((w.fill m).heap.retain w.fuse.buf) (List.append_nil _).symm (w.fill_value m) operations.symm
    idle.queue.symm rfl rfl
  rw [out] at result queue phase
  rw [Obs.items, if_neg some, parse]
  dsimp only
  rw [result, queue, phase]
  rfl

/-- A message that is refused queues nothing. -/
theorem Processed.refused_queue {fuse fuse' : Fuse} {buf : Nat} {bytes : Bytes} {host host' : Host}
    {heap heap' : ArcHeap Bytes} {e : Fault}
    (view : Processed fuse buf bytes host heap (.error e, fuse', host', heap')) :
    fuse'.pending = fuse.pending := by
  cases view with
  | forgets _ rs _ _ _ _ _ _ _ _ all =>
      rcases all with ok | rfl
      · cases ok
      · exact List.append_nil _
  | _ => rfl

theorem InOrder.afterRead (h : InOrder ops initDone w) (live : w.live = true) (idle : w.Idle)
    (result : ReadResult) : InOrder ops initDone ((w.observeRead result).afterRead result).2 := by
  have view := World.afterRead_cases (w.observeRead result) result
  generalize (w.observeRead result).afterRead result = out at view
  have idle' : (w.observeRead result).Idle := ⟨idle.queue, idle.unfinished, idle.watching⟩
  have empty : w.fuse.pending.map (Except.ok : Request → Item) = [] := by
    rw [idle.queue, List.map_nil]
  cases view with
  | again =>
      exact h.extend live (.read w.fuse.buf _ w.host.next) [] rfl rfl rfl (List.append_nil _)
        fun _ _ _ _ => idle.queue
  | closed errno gone =>
      exact h.extend live (.read w.fuse.buf (.error errno) w.host.next) [.done] (if_pos (.inr gone))
        (List.append_assoc ..) rfl (List.append_nil _) fun _ _ _ _ => idle.queue
  | failed errno real present =>
      have item : ¬ (errno = EAGAIN ∨ errno = ENODEV ∨ errno = ECONNABORTED) := by
        rintro (again | gone)
        · exact real again
        · exact present gone
      refine h.extend live (.read w.fuse.buf (.error errno) w.host.next)
        [.item (.error (.os errno))]
        (if_neg item) (List.append_assoc ..) rfl ?_ fun _ _ _ _ => idle.queue
      simp only [World.ret, World.observeRead, World.observe, empty]
      rfl
  | eof m end_ =>
      exact h.extend live (.read w.fuse.buf (.data m) w.host.next) [.done] (if_pos end_)
        (List.append_assoc ..) rfl (List.append_nil _) fun _ _ _ _ => idle.queue
  | accepted m some w' done =>
      have parsed := parse_eq idle' h.operations some done
      obtain ⟨fuse, host, heap, rfl, view⟩ := World.process_processed done
      refine h.extend live (.read w.fuse.buf _ w.host.next) [] parsed rfl view.ops_eq ?_ fun _ _ _
        _ => idle.queue
      simp [empty, errorItem, yielded, Obs.yielded?]
  | refused m some w' e done =>
      have parsed := parse_eq idle' h.operations some done
      obtain ⟨fuse, host, heap, rfl, view⟩ := World.process_processed done
      have unchanged : fuse.pending = [] := view.refused_queue.trans idle.queue
      refine h.extend live (.read w.fuse.buf _ w.host.next) [.item (.error e)] parsed
        (List.append_assoc ..)
        view.ops_eq ?_ fun _ _ _ _ => idle.queue
      simp only [World.ret, World.observe, World.processed, empty, unchanged]
      rfl
  | panicked m some w' done => exact absurd done (World.process_noPanic _ _ m)

/-- Observations that contribute and return nothing. -/
theorem InOrder.observe (h : InOrder ops initDone w) (live : w.live = true) (o : Obs)
    (accounts : ∀ phase, o.items ops phase = ([], phase)) (unreturned : yielded [o] = [])
    (read : ∀ buf result next, o ≠ .read buf result next) : InOrder ops initDone (w.observe o) := by
  refine h.extend live o [] (accounts _) rfl rfl ?_ fun buf result next same =>
    absurd same (read buf result next)
  rw [List.map_nil, unreturned, List.append_nil]
  rfl

theorem InOrder.turn (h : InOrder ops initDone w) (live : w.live = true) (t : Turn) :
    InOrder ops initDone (w.pollTurn t).2 := by
  have view := w.pollTurn_turned t
  generalize w.pollTurn t = out at view
  have watched : ∀ ready, InOrder ops initDone (w.watch ready) := fun ready =>
    h.extend live (.watcher ready) [] rfl rfl rfl (List.append_nil _) (by simp)
  have returned : ∀ {w : World} (_ : InOrder ops initDone w) (_ : w.live = true)
      (result : PollResult),
      result.item? = none → InOrder ops initDone (w.ret result).2 := by
    intro w h live result none
    exact h.observe live _ (fun _ => rfl) (by simp [yielded, Obs.yielded?, none]) (by simp)
  cases view with
  | yielded r rest queue =>
      refine h.extend live (.returned (.item (.ok r))) [] rfl rfl rfl ?_ (by simp)
      simp only [World.ret, World.observe, World.yield, queue, List.map_cons, List.append_nil]
      rfl
  | finished queue stopped => exact returned h live .done rfl
  | watcherTaken queue unfinished taken => exact returned h live .panicked rfl
  | watcherDone idle =>
      have stopped : InOrder ops initDone (w.watch true).finish :=
        (watched true).frame rfl rfl rfl fun _ => ⟨live, rfl⟩
      exact returned stopped live .done rfl
  | pending idle => exact returned (watched false) live .pending rfl
  | unready idle e =>
      have empty : w.fuse.pending.map (Except.ok : Request → Item) = [] := by
        rw [idle.queue, List.map_nil]
      refine (watched false).extend live (.unready e) [.item (.error e)]
        rfl (List.append_assoc ..) rfl ?_
        (by simp)
      simp only [World.ret, World.observe, World.watch, empty]
      rfl
  | shared idle none => exact returned (watched false) live .panicked rfl
  | read idle w₁ own =>
      have same : InOrder ops initDone w₁ ∧ w₁.Idle ∧ w₁.live = true := by
        obtain ⟨rfl, -⟩ | ⟨rfl, -⟩ := World.exclusive_cases own
        · exact ⟨watched false, ⟨idle.queue, idle.unfinished, rfl⟩, live⟩
        · exact ⟨(watched false).frame rfl rfl rfl fun _ => ⟨live, rfl⟩,
            ⟨idle.queue, idle.unfinished, rfl⟩, live⟩
      exact same.1.afterRead same.2.2 same.2.1 t.read

theorem InOrder.step {τ : Type} [Timeout τ] {may : ∀ r, Consume τ r → WritevResult → Prop}
    (h : InOrder ops initDone w) (step : Step τ may w w') : InOrder ops initDone w' := by
  cases step with
  | poll live turns =>
      have both := World.pollNext_induct (P := fun w => InOrder ops initDone w ∧ w.live = true)
        (fun w t before => ⟨before.1.turn before.2 t, (w.pollTurn_live t).trans before.2⟩) w
          turns ⟨h, live⟩
      exact both.1
  | call front back r m split c => exact h.frame rfl rfl rfl fun live => ⟨live, rfl⟩
  | consume front back r m split c allowed => exact h.frame rfl rfl rfl fun live => ⟨live, rfl⟩
  | dropFuse live => exact h.frame rfl rfl rfl fun dead => by cases dead

/-- A poll that finds nothing to return has emptied the queue. -/
theorem World.pollTurn_drained (w : World) (t : Turn)
    (ended : (w.pollTurn t).1 = some .pending ∨ (w.pollTurn t).1 = some .done) :
    (w.pollTurn t).2.fuse.pending = [] := by
  have view := w.pollTurn_turned t
  generalize w.pollTurn t = out at view ended
  cases view with
  | yielded r rest queue => simp [World.ret] at ended
  | finished queue stopped => exact queue
  | watcherTaken queue unfinished taken => exact queue
  | watcherDone idle => exact idle.queue
  | pending idle => exact idle.queue
  | unready idle e => exact idle.queue
  | shared idle none => exact idle.queue
  | read idle w₁ own =>
      have empty : w₁.fuse.pending = [] := by
        obtain ⟨rfl, -⟩ | ⟨rfl, -⟩ := World.exclusive_cases own <;> exact idle.queue
      have view := World.afterRead_cases (w₁.observeRead t.read) t.read
      generalize t.read = result at view ended ⊢
      generalize (w₁.observeRead result).afterRead result = out at view ended
      cases view with
      | again => simp at ended
      | closed errno gone => exact empty
      | failed errno real present => exact empty
      | eof m end_ => exact empty
      | accepted m some w' done => simp at ended
      | refused m some w' e done => simp [World.ret] at ended
      | panicked m some w' done => simp [World.ret] at ended

theorem World.pollNext_drained (w : World) (turns : List Turn)
    (ended : (w.pollNext turns).1 = some .pending ∨ (w.pollNext turns).1 = some .done) :
    (w.pollNext turns).2.fuse.pending = [] := by
  induction turns generalizing w with
  | nil => simp [World.pollNext] at ended
  | cons t turns ih =>
      have one := w.pollTurn_drained t
      unfold World.pollNext at ended ⊢
      split at ended
      · next result w' same =>
          rw [same] at one
          exact one ended
      · next w' same => exact ih w' ended

end

section runs
variable {τ : Type} [Timeout τ]

theorem mounted_run_inOrder {ops : EnabledOps} {initDone : Bool} {outcome : Nat → WritevResult}
    {pageSize : Int64} {w : World}
    (run : Reaches τ (World.mounted ops initDone outcome pageSize) w) :
    InOrder ops initDone w :=
  run_induct (fun _ _ _ h last => h.step last) (mounted_inOrder ops initDone outcome pageSize) run

/-- The items returned are the contributions of what was read, in order and up to the
queue; a poll that returns no item has returned them all, and so has every poll
that reads. -/
theorem stream_is_the_parse_in_order (ops : EnabledOps) (initDone : Bool)
    (outcome : Nat → WritevResult) (pageSize : Int64) (w : World)
    (run : Reaches τ (World.mounted ops initDone outcome pageSize) w) :
    yielded w.trace <+: (contributions ops initDone w.trace).1 ∧
    (w.live = true → yielded w.trace ++ w.fuse.pending.map .ok =
      (contributions ops initDone w.trace).1) ∧
    (w.live = true → ∀ turns,
      (w.pollNext turns).1 = some .pending ∨ (w.pollNext turns).1 = some .done →
      yielded (w.pollNext turns).2.trace =
        (contributions ops initDone (w.pollNext turns).2.trace).1) ∧
    ∀ earlier buf result next later, w.trace = earlier ++ .read buf result next :: later →
      yielded earlier = (contributions ops initDone earlier).1 := by
  have h := mounted_run_inOrder run
  refine ⟨h.front, h.queue, ?_, h.reads⟩
  intro live turns ended
  have both := World.pollNext_induct (P := fun w => InOrder ops initDone w ∧ w.live = true)
    (fun w t before => ⟨before.1.turn before.2 t, (w.pollTurn_live t).trans before.2⟩) w
      turns ⟨h, live⟩
  have all := both.1.queue both.2
  rwa [w.pollNext_drained turns ended, List.map_nil, List.append_nil] at all

end runs

/-- Two forgets in a batch. -/
def forgetsMessage : Message :=
  ⟨Packed.bytes (FuseInHeader.mk 80 42 0 0 0 0 0 0 0) ++ (Packed.bytes (FuseBatchForgetIn.mk 2 0) ++
    (Packed.bytes (FuseForgetOne.mk 7 1) ++ Packed.bytes (FuseForgetOne.mk 8 1))), by decide⟩

/-- A WRITE that was taken, and a batch of which one forget was taken and one is queued. -/
theorem stream_is_the_parse_in_order_write :
    ∃ w : World, Reaches (UInt64 × UInt32)
        (World.mounted { write := true, forget := true } true (fun _ => .ok) 4096) w ∧
      messages w.trace = [writeMessage, forgetsMessage] ∧ (yielded w.trace).length = 2 ∧
      w.fuse.pending = [.forget ⟨⟨0⟩, 8, 1⟩] ∧
      yielded w.trace ++ w.fuse.pending.map .ok =
        (contributions { write := true, forget := true } true w.trace).1 := by
  let r : Write :=
    { request := ⟨1⟩, inode := 1, fh := 5, dataOffset := 80, size := 3, offset := 0, buffer := 0 }
  have run : Reaches (UInt64 × UInt32)
      (World.mounted { write := true, forget := true } true (fun _ => .ok) 4096) _ :=
    (Relation.ReflTransGen.single (.takes (r := .write r) rfl ⟨rfl, rfl, rfl⟩ rfl rfl
      (m := writeMessage) (accepted_bytes rfl) rfl rfl)).tail
        (.takes (r := .forget ⟨⟨0⟩, 7, 1⟩) rfl ⟨rfl, rfl, rfl⟩ rfl rfl
          (m := forgetsMessage) (accepted_bytes rfl) rfl rfl)
  exact ⟨_, run, rfl, rfl, rfl, (stream_is_the_parse_in_order _ _ _ _ _ run).2.1 rfl⟩

end ProxmoxFuse
