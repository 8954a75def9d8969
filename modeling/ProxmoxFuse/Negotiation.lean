import ProxmoxFuse.Answers
import ProxmoxFuse.Decoding
import ProxmoxFuse.InOrder

/-!
# What INIT advertises and what is served

Three places decide which requests a session may be sent and which it serves: the
builder, the flags of the INIT reply, and the guards of the dispatcher. `Agrees`
says how they should fit together, over the runs that follow INIT.
-/
namespace ProxmoxFuse

/-- The `enable_*` methods of the builder. -/
inductive Enable where
  | readdir
  | readdirplus
  | mkdir
  | create
  | mknod
  | open
  | setattr
  | statfs
  | unlink
  | rmdir
  | rename
  | read
  | write
  | readlink
  | readXattr
  deriving DecidableEq

def Enable.apply : Enable → FuseSessionBuilder → FuseSessionBuilder
  | .readdir => .enableReaddir
  | .readdirplus => .enableReaddirplus
  | .mkdir => .enableMkdir
  | .create => .enableCreate
  | .mknod => .enableMknod
  | .open => .enableOpen
  | .setattr => .enableSetattr
  | .statfs => .enableStatfs
  | .unlink => .enableUnlink
  | .rmdir => .enableRmdir
  | .rename => .enableRename
  | .read => .enableRead
  | .write => .enableWrite
  | .readlink => .enableReadlink
  | .readXattr => .enableReadXattr

/-- The operations of a session built with these calls. -/
def builtOps (name : String) (calls : List Enable) : EnabledOps :=
  (calls.foldl (fun builder call => call.apply builder) (Fuse.builder name)).ops

section builder
variable {builder : FuseSessionBuilder} (calls : List Enable)

/-- An operation that only one method enables. -/
theorem foldl_apply_field (field : EnabledOps → Bool) {call : Enable}
    (sets : ∀ builder, field (call.apply builder).ops = true)
    (keeps : ∀ other builder, other ≠ call → field (other.apply builder).ops = field builder.ops) :
    field (calls.foldl (fun builder call => call.apply builder) builder).ops =
      (field builder.ops || decide (call ∈ calls)) := by
  induction calls generalizing builder with
  | nil => simp
  | cons first rest ih =>
      rw [List.foldl_cons, ih]
      by_cases same : first = call
      · subst same
        simp [sets]
      · have other : call ≠ first := fun eq => same eq.symm
        simp [keeps first builder same, other]

theorem foldl_apply_keeps {P : EnabledOps → Prop}
    (keeps : ∀ (call : Enable) (builder : FuseSessionBuilder),
      P builder.ops → P (call.apply builder).ops)
    (start : P builder.ops) :
    P (calls.foldl (fun builder call => call.apply builder) builder).ops := by
  induction calls generalizing builder with
  | nil => exact start
  | cons first rest ih => exact ih (keeps first builder start)

variable (name : String)

theorem builtOps_readdir : (builtOps name calls).readdir = decide (.readdir ∈ calls) := by
  refine (foldl_apply_field calls EnabledOps.readdir (fun _ => rfl) ?_).trans (Bool.false_or _)
  intro other builder different
  cases other <;> first | rfl | exact absurd rfl different

theorem builtOps_readdirplus :
    (builtOps name calls).readdirplus = decide (.readdirplus ∈ calls) := by
  refine (foldl_apply_field calls EnabledOps.readdirplus (fun _ => rfl) ?_).trans (Bool.false_or _)
  intro other builder different
  cases other <;> first | rfl | exact absurd rfl different

/-- What creates also opens, and what opens also releases. -/
def EnabledOps.Coherent (ops : EnabledOps) : Prop :=
  (ops.create = true → ops.open = true) ∧ (ops.open = true → ops.release = true)

theorem builtOps_coherent : (builtOps name calls).Coherent := by
  have start : (Fuse.builder name).ops.Coherent :=
    ⟨fun no => (by cases no), fun no => (by cases no)⟩
  refine foldl_apply_keeps calls ?_ start
  intro call builder before
  cases call with
  | create | «open» => exact ⟨fun _ => rfl, fun _ => rfl⟩
  | _ => exact before

end builder

/-! ### The flags of the reply -/

def FuseInitIn.offers (initIn : FuseInitIn) (flag : InitFlags) : Prop :=
  initIn.flags &&& flag.bits = flag.bits

def FuseInitOut.advertises (out : FuseInitOut) (flag : InitFlags) : Prop :=
  out.flags &&& flag.bits = flag.bits

namespace BitFlags
variable {known : UInt32} (a b : BitFlags known) (i : Nat)

theorem union_testBit :
    (a.union b).bits.toNat.testBit i = (a.bits.toNat.testBit i || b.bits.toNat.testBit i) := by
  rw [BitFlags.union, UInt32.toNat_or, Nat.testBit_or]

theorem inter_testBit :
    (a.inter b).bits.toNat.testBit i = (a.bits.toNat.testBit i && b.bits.toNat.testBit i) := by
  rw [BitFlags.inter, UInt32.toNat_and, Nat.testBit_and]

theorem union_if_testBit (p : Bool) :
    (if p then a.union b else a).bits.toNat.testBit i =
      (a.bits.toNat.testBit i || (p && b.bits.toNat.testBit i)) := by
  cases p with
  | false => simp
  | true => simp [union_testBit]

end BitFlags

section flags
variable (initIn : FuseInitIn) (ops : EnabledOps) (pageSize : Int64)

/-- A flag is advertised if it is proposed for these operations and the kernel offers it. -/
theorem negotiateInit_testBit {i : Nat} (pages : InitFlags.MAX_PAGES.bits.toNat.testBit i = false) :
    (negotiateInit initIn ops pageSize).flags.toNat.testBit i =
      (((((InitFlags.ASYNC_READ.union InitFlags.BIG_WRITES).union InitFlags.ATOMIC_O_TRUNC).union
            InitFlags.NO_OPENDIR_SUPPORT).bits.toNat.testBit i ||
          (ops.readdirplus && (InitFlags.DO_READDIRPLUS.union
            InitFlags.READDIRPLUS_AUTO).bits.toNat.testBit i) ||
          (!ops.open && InitFlags.NO_OPEN_SUPPORT.bits.toNat.testBit i)) &&
        (BitFlags.fromBitsTruncate initIn.flags : InitFlags).bits.toNat.testBit i) := by
  simp only [negotiateInit, BitFlags.inter_testBit]
  congr 1
  split
  · split
    · rw [BitFlags.union_testBit, pages, Bool.or_false, BitFlags.union_if_testBit,
        BitFlags.union_if_testBit]
    · rw [BitFlags.union_if_testBit, BitFlags.union_if_testBit]
  · rw [BitFlags.union_if_testBit, BitFlags.union_if_testBit]

theorem truncated_testBit (bits : UInt32) {i : Nat}
    (known : (0x1426029 : UInt32).toNat.testBit i = true) :
    (BitFlags.fromBitsTruncate bits : InitFlags).bits.toNat.testBit i = bits.toNat.testBit i := by
  rw [BitFlags.fromBitsTruncate, UInt32.toNat_and, Nat.testBit_and, known, Bool.and_true]

theorem negotiateInit_advertises {flag : InitFlags} {i : Nat} (single : flag.bits.toNat = 2 ^ i)
    (pages : InitFlags.MAX_PAGES.bits.toNat.testBit i = false)
    (known : (0x1426029 : UInt32).toNat.testBit i = true) {proposed : Bool}
    (same : ((((InitFlags.ASYNC_READ.union InitFlags.BIG_WRITES).union
      InitFlags.ATOMIC_O_TRUNC).union
            InitFlags.NO_OPENDIR_SUPPORT).bits.toNat.testBit i ||
          (ops.readdirplus && (InitFlags.DO_READDIRPLUS.union
            InitFlags.READDIRPLUS_AUTO).bits.toNat.testBit i) ||
          (!ops.open && InitFlags.NO_OPEN_SUPPORT.bits.toNat.testBit i)) = proposed) :
    (negotiateInit initIn ops pageSize).advertises flag ↔ proposed = true ∧ initIn.offers flag := by
  rw [FuseInitOut.advertises, FuseInitIn.offers, FlagWords.and_eq_self_iff single,
    FlagWords.and_eq_self_iff single, negotiateInit_testBit initIn ops pageSize pages, same,
    truncated_testBit initIn.flags known, Bool.and_eq_true]

theorem negotiateInit_auto :
    (negotiateInit initIn ops pageSize).advertises InitFlags.READDIRPLUS_AUTO ↔
    ops.readdirplus = true ∧ initIn.offers InitFlags.READDIRPLUS_AUTO :=
  negotiateInit_advertises (i := 14) initIn ops pageSize (by decide) (by decide) (by decide)
    (by cases ops.readdirplus <;> cases ops.open <;> decide)

theorem negotiateInit_plus :
    (negotiateInit initIn ops pageSize).advertises InitFlags.DO_READDIRPLUS ↔
    ops.readdirplus = true ∧ initIn.offers InitFlags.DO_READDIRPLUS :=
  negotiateInit_advertises (i := 13) initIn ops pageSize (by decide) (by decide) (by decide)
    (by cases ops.readdirplus <;> cases ops.open <;> decide)

theorem negotiateInit_noOpen :
    (negotiateInit initIn ops pageSize).advertises InitFlags.NO_OPEN_SUPPORT ↔
    (!ops.open) = true ∧ initIn.offers InitFlags.NO_OPEN_SUPPORT :=
  negotiateInit_advertises (i := 17) initIn ops pageSize (by decide) (by decide) (by decide)
    (by cases ops.readdirplus <;> cases ops.open <;> decide)

end flags

/-! ### INIT in a run -/

/-- What the kernel says in its INIT message. -/
def Message.initIn (m : Message) : FuseInitIn := Packed.ofBytes (m.bytes.drop 40)

/-- INIT is over: the message `m`, read when `w` was polled, was answered with `out`. -/
structure World.Negotiates (w : World) (m : Message) (out : FuseInitOut) (w' : World) : Prop where
  waiting : w.fuse.initDone = false
  turn : w.pollTurn ⟨false, .ready, .data m⟩ = (none, w')
  ready : w'.fuse.initDone = true
  replied : ∃ a, w'.host.log = w.host.log ++ [a] ∧ Packed.ofBytes a.payload = out

/-- Messages of `q` read at any point of the runs from `start` are queued, and not answered. -/
def Serves (τ : Type) [Timeout τ] (start : World) (q : KernelRequest) : Prop :=
  ∀ w, Reaches τ start w → w.live = true → w.Idle →
    ∀ (h : KernelHeader) (fits : (q.encode h).length ≤ READ_BUF_SIZE),
      ∃ w', w.pollTurn ⟨false, .ready, .data ⟨q.encode h, fits⟩⟩ = (none, w') ∧
        w'.fuse.pending = [q.request h w'.fuse.buf] ∧ w'.host = w.host

def Request.opens (r : Request) : Prop := r.opcode = .open ∨ r.opcode = .create

/-- What was advertised agrees with what is served in the runs from `start`. -/
structure Agrees (τ : Type) [Timeout τ] (out : FuseInitOut) (start : World) : Prop where
  auto : out.advertises InitFlags.READDIRPLUS_AUTO →
    ∀ r, Serves τ start (.readdir r) ∧ Serves τ start (.readdirplus r)
  plus : out.advertises InitFlags.DO_READDIRPLUS → ∀ r, Serves τ start (.readdirplus r)
  noOpen : out.advertises InitFlags.NO_OPEN_SUPPORT →
    ∀ w, Reaches τ start w → ∀ r, .ok r ∈ yielded w.trace → ¬ r.opens
  opened : (∃ w r, Reaches τ start w ∧ .ok r ∈ yielded w.trace ∧ r.opens) →
    (∀ flags openFlags, Serves τ start (.open flags openFlags)) ∧
      ∀ fh flags releaseFlags lockOwner, Serves τ start (.release fh flags releaseFlags lockOwner)

/-- A request that a message queues is one of an enabled operation. -/
theorem Processed.queue_enabled {fuse fuse' : Fuse} {buf : Nat} {bytes : Bytes} {host host' : Host}
    {heap heap' : ArcHeap Bytes} {result : Except Fault Unit} (empty : fuse.pending = [])
    (view : Processed fuse buf bytes host heap (result, fuse', host', heap')) {r : Request}
    (member : r ∈ fuse'.pending) : r.isForget = true ∨ fuse.ops.enables r.opcode = true := by
  cases view with
  | queued r' _ _ _ _ _ _ _ fresh =>
      simp only [empty, List.nil_append, List.mem_singleton] at member
      rw [member, fresh.opcode_eq]
      exact .inr fresh.enabled
  | forgets _ rs _ _ _ _ _ _ _ forgets =>
      simp only [empty, List.nil_append] at member
      exact .inl (forgets r member)
  | _ => simp [empty] at member

theorem ok_not_mem_errorItem (result : Except Fault Unit) (r : Request) :
    .ok r ∉ errorItem result := by
  rcases result with (e | -) | - <;> simp [errorItem]

theorem parse_enabled {ops : EnabledOps} {initDone : Bool} {buf : Nat} {next : WritevResult}
    {m : Message} {r : Request} (member : .ok r ∈ (parse ops initDone buf next m).1) :
    r.isForget = true ∨ ops.enables r.opcode = true := by
  have view := processRequest_processed
    { ops, buf, pending := [], initDone, finished := false, errWatcher := ⟨false⟩ } buf m.bytes []
    { outcome := fun _ => next, pageSize := 4096, log := [] }
    { value := fun _ => m.bytes, strong := fun _ => 1, next := buf + 1 } (List.append_nil _).symm
  rcases List.mem_append.mp member with queued | failed
  · obtain ⟨r', inside, same⟩ := List.mem_map.mp queued
    cases same
    exact view.queue_enabled rfl inside
  · exact absurd failed (ok_not_mem_errorItem _ r)

theorem Obs.items_enabled {ops : EnabledOps} {initDone : Bool} {o : Obs} {r : Request}
    (member : .ok r ∈ (o.items ops initDone).1) :
    r.isForget = true ∨ ops.enables r.opcode = true := by
  cases o with
  | read buf result next =>
      cases result with
      | data m =>
          simp only [Obs.items] at member
          split at member
          · simp at member
          · exact parse_enabled member
      | error errno =>
          simp only [Obs.items] at member
          split at member <;> simp at member
  | unready e => simp [Obs.items] at member
  | watcher ready => simp [Obs.items] at member
  | returned result => simp [Obs.items] at member

theorem contributions_enabled {ops : EnabledOps} {initDone : Bool} {trace : List Obs} {r : Request}
    (member : .ok r ∈ (contributions ops initDone trace).1) :
    r.isForget = true ∨ ops.enables r.opcode = true := by
  induction trace generalizing initDone with
  | nil => simp [contributions] at member
  | cons o rest ih =>
      rw [← List.singleton_append, contributions_append] at member
      rcases List.mem_append.mp member with first | later
      · have here : .ok r ∈ (o.items ops initDone).1 := by simpa [contributions] using first
        exact Obs.items_enabled here
      · exact ih later

section runs
variable {τ : Type} [Timeout τ] {ops : EnabledOps} {initDone : Bool} {outcome : Nat → WritevResult}
  {pageSize : Int64} {start : World}

/-- What is yielded belongs to an enabled operation. -/
theorem yielded_enabled (run : Reaches τ (World.mounted ops initDone outcome pageSize) start)
    {r : Request} (member : .ok r ∈ yielded start.trace) :
    r.isForget = true ∨ ops.enables r.opcode = true :=
  contributions_enabled ((mounted_run_inOrder run).front.subset member)

theorem opens_enabled {r : Request} (coherent : ops.Coherent) (opens : r.opens)
    (enabled : r.isForget = true ∨ ops.enables r.opcode = true) : ops.open = true := by
  have kind : r.isForget = false := by
    cases r <;> first | rfl | (rcases opens with code | code <;> cases code)
  rw [kind] at enabled
  have on := enabled.resolve_left (by simp)
  rcases opens with code | code
  · rwa [code] at on
  · rw [code] at on
    exact coherent.1 on

/-- An idle session reads a message into a buffer of its own and processes it there. -/
theorem World.turn_message {w : World} (b : Buffers w) (live : w.live = true) (idle : w.Idle)
    {m : Message} (nonempty : m.bytes.length ≠ 0) :
    ∃ w₁ : World, w₁.fuse.ops = w.fuse.ops ∧ w₁.fuse.initDone = w.fuse.initDone ∧
      w₁.fuse.pending = [] ∧
      w₁.host = w.host ∧ ∀ fuse host heap,
        w₁.fuse.processRequest w₁.fuse.buf m.bytes.length w₁.host
          ((w₁.fill m).heap.retain w₁.fuse.buf) =
          (.ok (), fuse, host, heap) →
        w.pollTurn ⟨false, .ready, .data m⟩ =
          (none, (w₁.observeRead (.data m)).processed m fuse host heap) := by
  obtain ⟨w₁, own, -⟩ := (b.watch false).exclusive live
  have same : w₁.fuse.ops = w.fuse.ops ∧ w₁.fuse.initDone = w.fuse.initDone ∧ w₁.fuse.pending = [] ∧
      w₁.host = w.host := by
    obtain ⟨rfl, -⟩ | ⟨rfl, -⟩ := World.exclusive_cases own <;> exact ⟨rfl, rfl, idle.queue, rfl⟩
  refine ⟨w₁, same.1, same.2.1, same.2.2.1, same.2.2.2, ?_⟩
  intro fuse host heap done
  have processed := World.process_eq (w := w₁.observeRead (.data m)) done
  have turn := World.pollTurn_read idle own (.data m)
  rwa [World.afterRead, if_neg nonempty, processed] at turn

theorem KernelRequest.encode_nonempty (h : KernelHeader) (q : KernelRequest) :
    (q.encode h).length ≠ 0 := by
  have length : (q.encode h).length = 40 + q.body.length := kernelMessage_length h q.opcode q.body
  omega

/-- After INIT the messages of an enabled operation are served. -/
theorem serves_of_enabled (run : Reaches τ (World.mounted ops initDone outcome pageSize) start)
    (ready : start.fuse.initDone = true) {q : KernelRequest} (on : q.enabledIn ops = true) :
    Serves τ start q := by
  intro w later live idle h fits
  have whole := run.trans later
  have operations := (mounted_run_inOrder whole).operations
  obtain ⟨w₁, operations₁, phase₁, queue₁, host₁, turn⟩ :=
    World.turn_message (mounted_run_buffers whole)
      live idle (m := ⟨q.encode h, fits⟩) (q.encode_nonempty h)
  have decoded := processRequest_decodes h q w₁.fuse w₁.fuse.buf _ w₁.host _ fits
    (w₁.fill_value ⟨q.encode h, fits⟩) (phase₁.trans (run_grown ready later).ready)
    (by rwa [operations₁, operations])
  refine ⟨_, turn _ _ _ decoded, ?_, host₁⟩
  change w₁.fuse.pending ++ [q.request h w₁.fuse.buf] = _
  rw [queue₁]
  rfl

/-- READDIR without `Readdir` is answered with `ENOSYS`. -/
theorem readdir_unserved (run : Reaches τ (World.mounted ops initDone outcome pageSize) start)
    (ready : start.fuse.initDone = true) (live : start.live = true) (idle : start.Idle)
    (off : ops.readdir = false) (r : KernelRead) (h : KernelHeader)
    (fits : ((KernelRequest.readdir r).encode h).length ≤ READ_BUF_SIZE) :
    ∃ w, start.pollTurn ⟨false, .ready, .data ⟨(KernelRequest.readdir r).encode h, fits⟩⟩ =
      (none, w) ∧
      w.fuse.pending = [] ∧ w.host = start.host.extend (enosys h.unique start.host.next) := by
  have operations := (mounted_run_inOrder run).operations
  obtain ⟨w₁, operations₁, phase₁, queue₁, host₁, turn⟩ :=
    World.turn_message (mounted_run_buffers run)
      live idle (m := ⟨(KernelRequest.readdir r).encode h, fits⟩)
        (KernelRequest.encode_nonempty h _)
  have unserved : w₁.fuse.processRequest w₁.fuse.buf
      ((KernelRequest.readdir r).encode h).length w₁.host
      ((w₁.fill ⟨_, fits⟩).heap.retain w₁.fuse.buf) =
      (.ok (), w₁.fuse, w₁.host.extend (enosys h.unique w₁.host.next),
        (w₁.fill ⟨_, fits⟩).heap.retain w₁.fuse.buf) := by
    have length : (KernelRequest.readdir r).body.length = 40 := rfl
    have small : 40 + (KernelRequest.readdir r).body.length < 2 ^ 32 := by
      rw [length]
      decide
    have disabled : w₁.fuse.ops.readdir = false := by rw [operations₁, operations, off]
    rw [processRequest_serve w₁.fuse w₁.host (w₁.fill_value ⟨_, fits⟩)
      (kernelMessage_accepted h 28 small)
      (phase₁.trans ready)]
    have code : Opcode.fromU32 (h.inHeader 28 (KernelRequest.readdir r).body.length).opcode =
        some .readdir := rfl
    unfold Fuse.serve
    rw [code]
    simp only [dispatch, disabled, Bool.false_eq_true, if_false, unserved, dropLive,
      RequestGuard.drop_eq, List.append_nil, Bool.or_false]
    rfl
  refine ⟨_, turn _ _ _ unserved, queue₁, ?_⟩
  rw [← host₁]
  rfl

/-- A turn that goes round again after a message has processed it. -/
theorem World.turn_accepted {w w' : World} {m : Message}
    (turn : w.pollTurn ⟨false, .ready, .data m⟩ = (none, w')) :
    ∃ w₁ : World, w₁.Idle ∧ w₁.fuse.ops = w.fuse.ops ∧ w₁.fuse.initDone = w.fuse.initDone ∧
      w₁.host = w.host ∧
      w₁.live = w.live ∧ (w₁.fill m).process m = (.ok (), w') := by
  have view := w.pollTurn_turned ⟨false, .ready, .data m⟩
  rw [turn] at view
  generalize same : (none, w') = out at view
  cases view with
  | read idle w₁ own =>
      have view := World.afterRead_cases (w₁.observeRead (.data m)) (.data m)
      rw [← same] at view
      generalize same' : (none, w') = out at view
      cases view with
      | accepted m some w₂ ok =>
          obtain rfl : w' = w₂ := (Prod.ext_iff.mp same').2
          refine ⟨w₁.observeRead (.data m), ?_⟩
          obtain ⟨rfl, -⟩ | ⟨rfl, -⟩ := World.exclusive_cases own
          · exact ⟨⟨idle.queue, idle.unfinished, rfl⟩, rfl, rfl, rfl, rfl, ok⟩
          · exact ⟨⟨idle.queue, idle.unfinished, rfl⟩, rfl, rfl, rfl, rfl, ok⟩
      | _ => cases same'
  | _ => cases same

/-- The reply to the INIT that was accepted, and the state it leaves. -/
theorem World.Negotiates.reply {w w' : World} {m : Message} {out : FuseInitOut}
    (init : w.Negotiates m out w') :
    out = negotiateInit m.initIn w.fuse.ops w.host.pageSize ∧ w'.live = w.live ∧ w'.Idle := by
  obtain ⟨a, grown, reply⟩ := init.replied
  obtain ⟨w₁, idle, operations, phase, host, live, done⟩ := World.turn_accepted init.turn
  obtain ⟨fuse, host', heap, rfl, view⟩ := World.process_processed done
  have waiting : w₁.fuse.initDone = false := phase.trans init.waiting
  have ready : fuse.initDone = true := init.ready
  cases view with
  | initDone header body initIn good _ opcode read sent =>
      have same : a = initAttempt w₁.fuse header initIn w₁.host := by
        have log : w₁.host.log ++ [initAttempt w₁.fuse header initIn w₁.host] = w.host.log ++ [a] :=
          grown
        rw [host] at log
        simpa [host] using log.symm
      have sound : initIn = m.initIn := by
        rw [Message.initIn, ← accepted_body good]
        exact readBody_ok read
      refine ⟨?_, live, idle.queue, idle.unfinished, idle.watching⟩
      rw [← reply, same, initAttempt, replyAttempt_payload, sound, operations, host]
      simp
  | _ => simp_all

variable (τ) in
theorem World.reaches_turn {w w' : World} {t : Turn} (live : w.live = true)
    (turn : w.pollTurn t = (none, w')) :
    Reaches τ w w' := by
  have one : Step τ (fun _ _ _ => True) w (w.pollNext [t]).2 := .poll w live [t]
  rw [World.pollNext, turn] at one
  exact .single one

/-- A listing is not served by a session without `Readdir`. -/
theorem not_serves_readdir (run : Reaches τ (World.mounted ops initDone outcome pageSize) start)
    (ready : start.fuse.initDone = true) (live : start.live = true) (idle : start.Idle)
    (off : ops.readdir = false) (r : KernelRead) : ¬ Serves τ start (.readdir r) := by
  intro serves
  have fits : ((KernelRequest.readdir r).encode ⟨1, 1, 0, 0, 0, 0, 0⟩).length ≤ READ_BUF_SIZE := by
    have length : (KernelRequest.readdir r).body.length = 40 := rfl
    rw [KernelRequest.encode, kernelMessage_length, length]
    decide
  obtain ⟨w, turn, queue, -⟩ := serves start .refl live idle ⟨1, 1, 0, 0, 0, 0, 0⟩ fits
  obtain ⟨w', turn', empty, -⟩ :=
    readdir_unserved run ready live idle off r ⟨1, 1, 0, 0, 0, 0, 0⟩ fits
  rw [turn] at turn'
  cases turn'
  simp [empty] at queue

/-- What INIT advertises is served, unless listings without `Readdir` are advertised to
a kernel that may then choose between both ways of listing. -/
theorem advertised_served_iff (name : String) (calls : List Enable) (w w' : World) (m : Message)
    (out : FuseInitOut)
    (run : Reaches τ (World.mounted (builtOps name calls) false outcome pageSize) w)
    (live : w.live = true) (init : w.Negotiates m out w') :
    Agrees τ out w' ↔
      ¬ (.readdirplus ∈ calls ∧ .readdir ∉ calls ∧ m.initIn.offers InitFlags.READDIRPLUS_AUTO) := by
  have operations := (mounted_run_inOrder run).operations
  obtain ⟨reply, live', idle⟩ := init.reply
  have whole := run.trans (World.reaches_turn τ live init.turn)
  have coherent := builtOps_coherent calls name
  have plus := builtOps_readdirplus calls name
  have plain := builtOps_readdir calls name
  have served := fun q (on : KernelRequest.enabledIn (builtOps name calls) q = true) =>
    serves_of_enabled whole init.ready on
  rw [operations] at reply
  subst reply
  constructor
  · rintro agrees ⟨inPlus, notPlain, offered⟩
    have advertised := (negotiateInit_auto m.initIn (builtOps name calls) w.host.pageSize).mpr
      ⟨by simp [plus, inPlus], offered⟩
    exact not_serves_readdir whole init.ready (live'.trans live) idle (by simp [plain, notPlain])
      ⟨0, 0, 0, 0, 0, 0, 0⟩ (agrees.auto advertised _).1
  · intro condition
    refine ⟨?_, ?_, ?_, ?_⟩
    · intro advertised r
      obtain ⟨on, offered⟩ := (negotiateInit_auto ..).mp advertised
      have listed : .readdir ∈ calls := by
        by_contra absent
        exact condition ⟨by simpa [plus] using on, absent, offered⟩
      exact ⟨served _ (plain.trans (by simp [listed])), served _ on⟩
    · intro advertised r
      exact served _ ((negotiateInit_plus ..).mp advertised).1
    · intro advertised w₂ later r member opens
      have closed := ((negotiateInit_noOpen ..).mp advertised).1
      have opened := opens_enabled coherent opens (yielded_enabled (whole.trans later) member)
      simp [opened] at closed
    · rintro ⟨w₂, r, later, member, opens⟩
      have opened := opens_enabled coherent opens (yielded_enabled (whole.trans later) member)
      exact ⟨fun _ _ => served _ opened, fun _ _ _ _ => served _ (coherent.2 opened)⟩

end runs

/-- A fresh session accepts its first message as INIT. -/
theorem World.mounted_negotiates (ops : EnabledOps) (outcome : Nat → WritevResult)
    (pageSize : Int64) {m : Message} {header : FuseInHeader} {body : Bytes} {initIn : FuseInitIn}
    (good : accepted m.bytes = some (header, body)) (request : initRequest header body = .ok initIn)
    (sent : outcome 0 = .ok) :
    ∃ w', (World.mounted ops false outcome pageSize).Negotiates m
      (negotiateInit initIn ops pageSize) w' := by
  have idle : (World.mounted ops false outcome pageSize).Idle := ⟨rfl, rfl, rfl⟩
  have own : ((World.mounted ops false outcome pageSize).watch false).exclusive =
      some ((World.mounted ops false outcome pageSize).watch false) := rfl
  have nonempty : m.bytes.length ≠ 0 := by
    intro empty
    simp [accepted, empty] at good
  have processed := World.process_eq
    (w := ((World.mounted ops false outcome pageSize).watch false).observeRead (.data m))
    (processRequest_init (World.fill_value _ m) good rfl request sent)
  have turn := World.pollTurn_read idle own (.data m)
  rw [World.afterRead, if_neg nonempty, processed] at turn
  refine ⟨_, rfl, turn, rfl, _, rfl, ?_⟩
  rw [initAttempt, replyAttempt_payload]
  simp [World.mounted, World.watch, World.observeRead, World.observe]

/-- An INIT of a kernel that knows both flags of READDIRPLUS. -/
def initHeader : FuseInHeader := ⟨104, 26, 1, 0, 0, 0, 0, 0, 0⟩

def initOffer : FuseInitIn := ⟨7, 31, 0, 0x6000, 0, List.Vector.replicate 11 0⟩

def initMessage : Message := ⟨Packed.bytes initHeader ++ Packed.bytes initOffer, by decide⟩

theorem mounted_initMessage (ops : EnabledOps) :
    ∃ w', (World.mounted ops false (fun _ => .ok) 4096).Negotiates initMessage
      (negotiateInit initOffer ops 4096)
      w' :=
  World.mounted_negotiates ops (fun _ => .ok) 4096 (accepted_bytes rfl) rfl rfl

theorem advertised_served_both :
    ∃ w', (World.mounted (builtOps "fs" [.readdir, .readdirplus]) false (fun _ => .ok)
      4096).Negotiates initMessage
        (negotiateInit initOffer (builtOps "fs" [.readdir, .readdirplus]) 4096) w' ∧
      Agrees (UInt64 × UInt32)
        (negotiateInit initOffer (builtOps "fs" [.readdir, .readdirplus]) 4096) w' := by
  obtain ⟨w', init⟩ := mounted_initMessage (builtOps "fs" [.readdir, .readdirplus])
  exact ⟨w', init, (advertised_served_iff "fs" [.readdir, .readdirplus] _ w' _ _ .refl rfl init).mpr
    (by simp)⟩

/-- The first page of a listing of the root. -/
def readdirPage : KernelRead := ⟨0, 0, 4096, 0, 0, 0, 0⟩

def readdirMessage : Message :=
  ⟨(KernelRequest.readdir readdirPage).encode ⟨2, 1, 0, 0, 0, 0, 0⟩, by decide⟩

/-- With `enable_readdirplus` alone the kernel may still send READDIR, which is answered
with `ENOSYS`. -/
theorem readdirplus_alone_disagrees :
    ∃ w', (World.mounted (builtOps "fs" [.readdirplus]) false (fun _ => .ok) 4096).Negotiates
      initMessage
        (negotiateInit initOffer (builtOps "fs" [.readdirplus]) 4096) w' ∧
      (negotiateInit initOffer (builtOps "fs" [.readdirplus]) 4096).advertises
        InitFlags.READDIRPLUS_AUTO ∧
      (∃ w, w'.pollTurn ⟨false, .ready, .data readdirMessage⟩ = (none, w) ∧ w.fuse.pending = [] ∧
        w.host = w'.host.extend (enosys 2 w'.host.next)) ∧
      ¬ Agrees (UInt64 × UInt32) (negotiateInit initOffer (builtOps "fs" [.readdirplus]) 4096)
        w' := by
  obtain ⟨w', init⟩ := mounted_initMessage (builtOps "fs" [.readdirplus])
  have advertised : (negotiateInit initOffer (builtOps "fs" [.readdirplus]) 4096).advertises
      InitFlags.READDIRPLUS_AUTO := (negotiateInit_auto ..).mpr ⟨rfl, rfl⟩
  obtain ⟨-, live, idle⟩ := init.reply
  have run := World.reaches_turn (UInt64 × UInt32) rfl init.turn
  refine ⟨w', init, advertised, ?_, ?_⟩
  · exact readdir_unserved run init.ready live idle rfl readdirPage ⟨2, 1, 0, 0, 0, 0, 0⟩
      readdirMessage.fits
  · intro agrees
    exact not_serves_readdir run init.ready live idle rfl readdirPage (agrees.auto advertised _).1

end ProxmoxFuse
