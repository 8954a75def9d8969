import ProxmoxFuse.ReplyPlan
import ProxmoxFuse.Session

/-!
# What the dispatcher can do

One inversion for all arms: a message other than a forget or DESTROY either
leaves its guard to answer or becomes exactly one request of its own variant
that carries the guard. `Request.Fresh` collects what is known of such a
request. The forgets have their own equations, since their guards never answer.
-/
namespace ProxmoxFuse

def Request.isForget : Request → Bool
  | .forget _ => true
  | _ => false

/-- The opcode a request variant is made for. -/
def Request.opcode : Request → Opcode
  | .lookup _ => .lookup
  | .forget _ => .forget
  | .getattr _ => .getattr
  | .setattr _ => .setattr
  | .statfs _ => .statfs
  | .readdir _ => .readdir
  | .readdirPlus _ => .readdirplus
  | .mkdir _ => .mkdir
  | .create _ => .create
  | .mknod _ => .mknod
  | .open _ => .open
  | .release _ => .release
  | .read _ => .read
  | .unlink _ => .unlink
  | .rmdir _ => .rmdir
  | .write _ => .write
  | .readlink _ => .readlink
  | .rename _ => .rename2
  | .listXAttrSize _ => .listxattr
  | .listXAttr _ => .listxattr
  | .getXAttrSize _ => .getxattr
  | .getXAttr _ => .getxattr

/-- The guards of the match arms. -/
def EnabledOps.enables (ops : EnabledOps) : Opcode → Bool
  | .lookup => ops.lookup
  | .forget => ops.forget
  | .batchForget => ops.forget
  | .getattr => ops.getattr
  | .setattr => ops.setattr
  | .statfs => ops.statfs
  | .readdir => ops.readdir
  | .readdirplus => ops.readdirplus
  | .mkdir => ops.mkdir
  | .create => ops.create
  | .mknod => ops.mknod
  | .open => ops.open
  | .release => ops.release
  | .read => ops.read
  | .write => ops.write
  | .unlink => ops.unlink
  | .rmdir => ops.rmdir
  | .rename2 => ops.rename
  | .readlink => ops.readlink
  | .listxattr => ops.listxattr
  | .getxattr => ops.getxattr
  | .init => false
  | .interrupt => false
  | .destroy => false

/-- A directory request still has its guard and its buffer. -/
def Request.Whole : Request → Prop
  | .readdir r => r.request.isSome ∧ r.replyBuffer.isSome
  | .readdirPlus r => r.request.isSome ∧ r.replyBuffer.isSome
  | _ => True

/-- A `Write` shares the buffer it was parsed from. -/
def Request.retainBuffer : Request → ArcHeap Bytes → ArcHeap Bytes
  | .write r, heap => heap.retain r.buffer
  | _, heap => heap

/-- The data of a `Write` lies behind the 80 header bytes of the message in `buf`, and
is as long as the message says. -/
def Request.Borrows (buf nbytes : Nat) (body : Bytes) : Request → Prop
  | .write r => r.buffer = buf ∧ r.dataOffset = 80 ∧
      r.size = (Packed.ofBytes body : FuseWriteIn).size.toNat ∧ 80 + r.size ≤ nbytes
  | _ => True

structure Request.Fresh (ops : EnabledOps) (unique : UInt64) (buf nbytes : Nat) (body : Bytes)
    (o : Opcode) (r : Request) : Prop where
  unique_eq : r.unique = unique
  isForget_eq : r.isForget = false
  opcode_eq : r.opcode = o
  enabled : ops.enables o = true
  whole : r.Whole
  borrows : r.Borrows buf nbytes body

/-- Opcodes whose messages are never answered. -/
def Opcode.unanswered : Opcode → Bool
  | .forget | .batchForget | .destroy => true
  | _ => false

theorem queueOne_cases (guard : RequestGuard) (heap : ArcHeap Bytes)
    {built : Except Fault (Request × ArcHeap Bytes)} {Q : Request × ArcHeap Bytes → Prop}
    (h : Returns Q built) :
    (∃ e, queueOne guard heap built = ⟨.error e, some guard, [], false, heap⟩) ∨
    ∃ r heap', Q (r, heap') ∧ queueOne guard heap built = ⟨.ok (), none, [r], false, heap'⟩ := by
  cases built with
  | error e => exact .inl ⟨e, rfl⟩
  | ok p => exact .inr ⟨p.1, p.2, h p rfl, rfl⟩

/-- How an arm that may queue one request is left. -/
def Served (ops : EnabledOps) (guard : RequestGuard) (buf nbytes : Nat) (body : Bytes)
    (heap : ArcHeap Bytes) (o : Opcode) (exit : Exit) : Prop :=
  (∃ result, exit = ⟨result, some guard, [], false, heap⟩) ∨
  ∃ r : Request, r.Fresh ops guard.unique buf nbytes body o ∧
    exit = ⟨.ok (), none, [r], false, r.retainBuffer heap⟩

theorem unserved_served (ops : EnabledOps) (guard : RequestGuard) (buf nbytes : Nat) (body : Bytes)
    (heap : ArcHeap Bytes) (o : Opcode) :
    Served ops guard buf nbytes body heap o (unserved guard heap) :=
  .inl ⟨.ok (), rfl⟩

theorem guarded_served {ops : EnabledOps} {guard : RequestGuard} {buf nbytes : Nat} {body : Bytes}
    {heap : ArcHeap Bytes} {o : Opcode} {built : Except Fault (Request × ArcHeap Bytes)}
    {enabled : Bool}
    (h : enabled = true → Returns (fun p => p.1.Fresh ops guard.unique buf nbytes body o ∧
      p.2 = p.1.retainBuffer heap) built) :
    Served ops guard buf nbytes body heap o
      (if enabled then queueOne guard heap built else unserved guard heap) := by
  cases enabled with
  | false => exact unserved_served ops guard buf nbytes body heap o
  | true =>
      obtain ⟨e, left⟩ | ⟨r, heap', ⟨fresh, shared⟩, queued⟩ := queueOne_cases guard heap (h rfl)
      · exact .inl ⟨.error e, left⟩
      · have same : heap' = r.retainBuffer heap := shared
        exact .inr ⟨r, fresh, queued.trans (by rw [same])⟩

/-- Every arm but those of the unanswered opcodes leaves its guard or queues one request. -/
theorem dispatch_served (ops : EnabledOps) (header : FuseInHeader) (body : Bytes) (buf nbytes : Nat)
    (guard : RequestGuard) (heap : ArcHeap Bytes) {o : Opcode} (answered : o.unanswered = false) :
    Served ops guard buf nbytes body heap o (dispatch ops header body buf nbytes guard heap o) := by
  cases o with
  | forget => cases answered
  | batchForget => cases answered
  | destroy => cases answered
  | interrupt => exact unserved_served ops guard buf nbytes body heap _
  | init => exact unserved_served ops guard buf nbytes body heap _
  | lookup | getattr | statfs | readlink | unlink | rmdir =>
      exact guarded_served fun on => Returns.pure ⟨⟨rfl, rfl, rfl, on, trivial, trivial⟩, rfl⟩
  | setattr | «open» | release | read =>
      exact guarded_served fun on => Returns.bind fun _ _ =>
        Returns.pure ⟨⟨rfl, rfl, rfl, on, trivial, trivial⟩, rfl⟩
  | mknod | mkdir | rename2 | create =>
      exact guarded_served fun on => Returns.bind fun _ _ => Returns.bind fun _ _ =>
        Returns.pure ⟨⟨rfl, rfl, rfl, on, trivial, trivial⟩, rfl⟩
  | readdir | readdirplus =>
      exact guarded_served fun on => Returns.bind fun _ _ =>
        Returns.pure ⟨⟨rfl, rfl, rfl, on, ⟨rfl, rfl⟩, trivial⟩, rfl⟩
  | write =>
      apply guarded_served
      intro on
      refine Returns.bind fun writeIn read => Returns.ite (fun _ => Returns.error) fun _ => ?_
      refine Returns.ite (fun _ => Returns.error) fun fits => ?_
      rw [readBody_ok read] at fits ⊢
      exact Returns.pure ⟨⟨rfl, rfl, rfl, on, trivial, rfl, rfl, rfl, Nat.not_lt.mp fits⟩, rfl⟩
  | listxattr =>
      apply guarded_served
      intro on
      refine Returns.bind fun _ _ => Returns.ite (fun _ => ?_) fun _ => ?_
      · exact Returns.pure ⟨⟨rfl, rfl, rfl, on, trivial, trivial⟩, rfl⟩
      · exact Returns.pure ⟨⟨rfl, rfl, rfl, on, trivial, trivial⟩, rfl⟩
  | getxattr =>
      apply guarded_served
      intro on
      refine Returns.bind fun _ _ => Returns.bind fun _ _ => Returns.ite (fun _ => ?_) fun _ => ?_
      · exact Returns.pure ⟨⟨rfl, rfl, rfl, on, trivial, trivial⟩, rfl⟩
      · exact Returns.pure ⟨⟨rfl, rfl, rfl, on, trivial, trivial⟩, rfl⟩

/-! ### Forgets -/

/-- The requests of a batch are forgets, whatever its body holds. -/
theorem batchForgets_isForget (body : Bytes) (i n : Nat) (pushed : List Request)
    (old : ∀ r ∈ pushed, r.isForget = true) :
    ∀ r ∈ (batchForgets body i n pushed).2, r.isForget = true := by
  induction n generalizing i pushed with
  | zero => exact old
  | succ n ih =>
      unfold batchForgets
      dsimp only
      split
      · exact old
      · split
        · exact old
        · apply ih
          intro r member
          rcases List.mem_append.mp member with earlier | last
          · exact old r earlier
          · rw [List.mem_singleton.mp last]
            rfl

/-- The bound checked by the loop is the bound its reads need. -/
theorem batchForgets_ok (body : Bytes) (i n : Nat) (pushed : List Request) :
    (batchForgets body i n pushed).1 = .ok () := by
  induction n generalizing i pushed with
  | zero => rfl
  | succ n ih =>
      unfold batchForgets
      dsimp only
      split
      · rfl
      · next inside =>
          have room : Packed.size FuseBatchForgetIn + i * Packed.size FuseForgetOne ≤
              body.length := by
            omega
          have entry : Packed.size FuseForgetOne ≤
              (body.drop (Packed.size FuseBatchForgetIn + i * Packed.size
                FuseForgetOne)).length := by
            rw [List.length_drop]
            omega
          simp only [sliceFrom, if_pos room, bind, Except.bind, readBody_eq entry]
          exact ih _ _

/-- How the arm of an unanswered opcode is left: only a FORGET too short for its
struct leaves with its guard still live. -/
inductive Unanswered (guard : RequestGuard) (body : Bytes) (heap : ArcHeap Bytes) :
    Opcode → Exit → Prop where
  | truncated (e : Fault) (short : body.length < 8) :
      Unanswered guard body heap .forget ⟨.error e, some guard, [], false, heap⟩
  | forget (rs : List Request) (forgets : ∀ r ∈ rs, r.isForget = true) (long : 8 ≤ body.length) :
      Unanswered guard body heap .forget ⟨.ok (), none, rs, false, heap⟩
  | batch (rs : List Request) (forgets : ∀ r ∈ rs, r.isForget = true) :
      Unanswered guard body heap .batchForget ⟨.ok (), none, rs, false, heap⟩
  | shortBatch (e : Fault) :
      Unanswered guard body heap .batchForget ⟨.error e, none, [], false, heap⟩
  | destroy : Unanswered guard body heap .destroy ⟨.ok (), none, [], true, heap⟩

theorem dispatch_unanswered (ops : EnabledOps) (header : FuseInHeader) (body : Bytes)
    (buf nbytes : Nat) (guard : RequestGuard) (heap : ArcHeap Bytes) {o : Opcode}
    (unanswered : o.unanswered = true) :
    Unanswered guard body heap o (dispatch ops header body buf nbytes guard heap o) := by
  cases o with
  | destroy => exact .destroy
  | forget =>
      by_cases short : body.length < 8
      · have bad : ∃ e, readBody FuseForgetIn body = .error e := ⟨_, if_pos short⟩
        obtain ⟨e, failed⟩ := bad
        simp only [dispatch, failed]
        exact .truncated e short
      · have long : Packed.size FuseForgetIn ≤ body.length := Nat.not_lt.mp short
        simp only [dispatch, readBody_eq long]
        cases ops.forget with
        | true => exact .forget _ (by simp [Request.isForget]) (Nat.not_lt.mp short)
        | false => exact .forget [] (by simp) (Nat.not_lt.mp short)
  | batchForget =>
      simp only [dispatch]
      cases ops.forget with
      | false => exact .batch [] (by simp)
      | true =>
          cases readBody FuseBatchForgetIn body with
          | error e => exact .shortBatch e
          | ok batchIn =>
              have forgets := batchForgets_isForget body 0 batchIn.count.toNat [] (by simp)
              have fine := batchForgets_ok body 0 batchIn.count.toNat []
              simp only [if_true, fine]
              exact .batch _ forgets
  | _ => cases unanswered

/-! ### Panics -/

theorem queueOne_noPanic {guard : RequestGuard} {heap : ArcHeap Bytes}
    {built : Except Fault (Request × ArcHeap Bytes)} (clean : NoPanic built) :
    NoPanic (queueOne guard heap built).result := by
  cases built with
  | error e => exact Raises.error (clean e rfl)
  | ok p => exact Raises.ok

theorem guarded_noPanic {guard : RequestGuard} {heap : ArcHeap Bytes}
    {built : Except Fault (Request × ArcHeap Bytes)} {enabled : Bool} (clean : NoPanic built) :
    NoPanic (if enabled then queueOne guard heap built else unserved guard heap).result := by
  cases enabled with
  | false => exact Raises.ok
  | true => exact queueOne_noPanic clean

/-- Every bound a slice of the dispatcher needs is checked before it. -/
theorem dispatch_noPanic (ops : EnabledOps) (header : FuseInHeader) (body : Bytes)
    (buf nbytes : Nat) (guard : RequestGuard) (heap : ArcHeap Bytes) (o : Opcode) :
    NoPanic (dispatch ops header body buf nbytes guard heap o).result := by
  cases o with
  | destroy | interrupt | init => exact Raises.ok
  | lookup | getattr | statfs | readlink | unlink | rmdir => exact guarded_noPanic Raises.ok
  | setattr | «open» | release | read | readdir | readdirplus =>
      exact guarded_noPanic (Raises.bind (readBody_noPanic _ body) fun _ _ => Raises.ok)
  | mknod | mkdir | create =>
      exact guarded_noPanic (Raises.bind (readBody_noPanic _ body) fun _ _ =>
        Raises.bind (nameAfter_noPanic _ body) fun _ _ => Raises.ok)
  | rename2 =>
      exact guarded_noPanic (Raises.bind (readBody_noPanic _ body) fun _ _ =>
        Raises.bind (twoNamesAfter_noPanic _ body) fun _ _ => Raises.ok)
  | write =>
      refine guarded_noPanic (Raises.bind (readBody_noPanic _ body) fun _ _ => ?_)
      exact Raises.ite (fun _ => NoPanic.io) fun _ => Raises.ite (fun _ => NoPanic.io) fun _ =>
        Raises.ok
  | listxattr =>
      refine guarded_noPanic (Raises.bind (readBody_noPanic _ body) fun _ _ => ?_)
      exact Raises.ite (fun _ => Raises.ok) fun _ => Raises.ok
  | getxattr =>
      refine guarded_noPanic (Raises.bind (readBody_noPanic _ body) fun _ _ => ?_)
      refine Raises.bind (nameAfter_noPanic _ body) fun _ _ => ?_
      exact Raises.ite (fun _ => Raises.ok) fun _ => Raises.ok
  | forget =>
      simp only [dispatch]
      cases read : readBody FuseForgetIn body with
      | error e => exact Raises.error (readBody_noPanic _ body e read)
      | ok forgetIn =>
          cases ops.forget with
          | false => exact Raises.ok
          | true => exact Raises.ok
  | batchForget =>
      simp only [dispatch]
      cases ops.forget with
      | false => exact Raises.ok
      | true =>
          cases read : readBody FuseBatchForgetIn body with
          | error e => exact Raises.error (readBody_noPanic _ body e read)
          | ok batchIn =>
              simp only [if_true, batchForgets_ok]
              exact Raises.ok

end ProxmoxFuse
