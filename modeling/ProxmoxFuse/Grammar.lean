import ProxmoxFuse.Process
import ProxmoxFuse.Stream

/-!
# What the parser accepts

`Rejects` is the grammar of the messages that `process_request` refuses once INIT
is over: every bound that some arm checks, and nothing else. What is not refused
either queues nothing or queues requests of the variant its opcode stands for,
with names that end before their terminator.
-/
namespace ProxmoxFuse

/-- The size of the structure at the front of a body. -/
def Opcode.fixedSize : Opcode → Nat
  | .setattr => 88
  | .mknod => 16
  | .mkdir => 8
  | .rename2 => 16
  | .open => 8
  | .release => 24
  | .read | .readdir | .readdirplus => 40
  | .write => 40
  | .create => 16
  | .listxattr | .getxattr => 8
  | .forget | .batchForget => 8
  | .lookup | .getattr | .statfs | .readlink | .unlink | .rmdir | .init | .interrupt | .destroy => 0

/-- The body of a message is refused by the arm of its opcode. -/
def Malformed (ops : EnabledOps) (body : Bytes) : Opcode → Prop
  | .forget => body.length < 8
  | .rename2 => ops.enables .rename2 = true ∧ (body.length < 16 ∨ 0 ∉ body.drop 16)
  | .write => ops.enables .write = true ∧
      (body.length < 40 ∨ body.length - 40 < (Packed.ofBytes body : FuseWriteIn).size.toNat)
  | o => ops.enables o = true ∧ body.length < o.fixedSize

/-- A message is refused. -/
def Rejects (ops : EnabledOps) (message : Bytes) : Prop :=
  message.length < 40 ∨ (Packed.ofBytes message : FuseInHeader).len.toNat ≠ message.length ∨
    ∃ o, Opcode.fromU32 (Packed.ofBytes message : FuseInHeader).opcode = some o ∧
      Malformed ops (message.drop 40) o

/-- The names in a request. -/
def Request.names : Request → List OsStr
  | .lookup r => [r.fileName]
  | .mkdir r => [r.dirName]
  | .create r => [r.fileName]
  | .mknod r => [r.fileName]
  | .unlink r => [r.fileName]
  | .rmdir r => [r.dirName]
  | .rename r => [r.name, r.newName]
  | .getXAttrSize r => [r.attrName]
  | .getXAttr r => [r.attrName]
  | _ => []

/-- A request of the variant an opcode stands for; a batch stands for single forgets. -/
def Request.MadeFor (r : Request) : Opcode → Prop
  | .batchForget => r.opcode = .forget
  | o => r.opcode = o

/-- The sizes in a request are those of the body it was made of. -/
def Request.Sized (body : Bytes) : Request → Prop
  | .read r => r.size = (Packed.ofBytes body : FuseReadIn).size.toNat
  | .readdir r => r.replyBuffer = some (ReplyBuf.new (Packed.ofBytes body : FuseReadIn).size.toNat)
  | .readdirPlus r =>
      r.replyBuffer = some (ReplyBuf.new (Packed.ofBytes body : FuseReadIn).size.toNat)
  | .listXAttr r => r.size = (Packed.ofBytes body : FuseGetxattrIn).size.toNat ∧ r.response = []
  | .getXAttr r => r.size = (Packed.ofBytes body : FuseGetxattrIn).size.toNat
  | .write r => r.size = (Packed.ofBytes body : FuseWriteIn).size.toNat
  | _ => True

/-- What is known of a request that an arm queued. -/
structure Request.Made (ops : EnabledOps) (body : Bytes) (o : Opcode) (r : Request) : Prop where
  enabled : ops.enables o = true
  variant : r.MadeFor o
  noNul : ∀ name ∈ r.names, 0 ∉ name
  sized : r.Sized body

section arms
variable {ops : EnabledOps} {guard : RequestGuard} {heap : ArcHeap Bytes} {body : Bytes}

theorem guarded_fails {enabled : Bool} {built : Except Fault (Request × ArcHeap Bytes)} :
    Fails (if enabled then queueOne guard heap built else unserved guard heap).result ↔
      enabled = true ∧ Fails built := by
  cases enabled with
  | false => simp [unserved]
  | true => cases built <;> simp [queueOne]

/-- An arm that reads a struct and then cannot fail. -/
theorem fixed_fails {enabled : Bool} {α : Type} [Packed α]
    {build : α → Except Fault (Request × ArcHeap Bytes)} (next : ∀ a, ¬ Fails (build a)) :
    Fails (if enabled then queueOne guard heap (readBody α body >>= build)
      else unserved guard heap).result ↔
      enabled = true ∧ body.length < Packed.size α := by
  rw [guarded_fails, Fails.bind_iff_left fun a _ => next a, readBody_fails]

/-- The name behind a struct can be read if the struct can. -/
theorem fixed_named_fails {enabled : Bool} {α : Type} [Packed α]
    {build : α → OsStr → Except Fault (Request × ArcHeap Bytes)}
    (next : ∀ a name, ¬ Fails (build a name)) :
    Fails (if enabled then
        queueOne guard heap (readBody α body >>= fun a => nameAfter α body >>= fun name =>
          build a name)
      else unserved guard heap).result ↔ enabled = true ∧ body.length < Packed.size α := by
  rw [guarded_fails, Fails.bind_iff_left, readBody_fails]
  intro a read
  have long : ¬ body.length < Packed.size α := by
    rw [← readBody_fails, read]
    simp
  rw [Fails.bind_iff_left fun name _ => next a name, nameAfter_fails]
  exact long

/-- The arms refuse exactly the malformed bodies. -/
theorem dispatch_fails_iff (header : FuseInHeader) (buf : Nat) (o : Opcode) :
    Fails (dispatch ops header body buf (40 + body.length) guard heap o).result ↔
      Malformed ops body o := by
  cases o with
  | destroy | interrupt | init => simp [dispatch, unserved, Malformed, Opcode.fixedSize]
  | lookup | getattr | statfs | readlink | unlink | rmdir =>
      refine guarded_fails.trans ?_
      simp [Malformed, Opcode.fixedSize]
  | setattr | «open» | release | read | readdir | readdirplus => exact fixed_fails fun _ => by simp
  | mknod | mkdir | create => exact fixed_named_fails fun _ _ => by simp
  | listxattr =>
      refine fixed_fails fun a => ?_
      simp [Fails.ite_iff]
  | getxattr =>
      refine fixed_named_fails fun a name => ?_
      simp [Fails.ite_iff]
  | rename2 =>
      refine guarded_fails.trans (and_congr_right fun _ => ?_)
      rw [Fails.bind_iff, readBody_fails]
      constructor
      · rintro (short | ⟨renameIn, -, failed⟩)
        · exact .inl short
        · rw [Fails.bind_iff_left fun names _ => by simp, twoNamesAfter_fails] at failed
          exact failed
      · rintro (short | unterminated)
        · exact .inl short
        · by_cases short : body.length < Packed.size FuseRename2In
          · exact .inl short
          · refine .inr ⟨_, readBody_eq (Nat.not_lt.mp short), ?_⟩
            rw [Fails.bind_iff_left fun names _ => by simp, twoNamesAfter_fails]
            exact .inr unterminated
  | write =>
      refine guarded_fails.trans (and_congr_right fun _ => ?_)
      have start : Packed.size FuseInHeader + Packed.size FuseWriteIn = 80 := rfl
      have size : Packed.size FuseWriteIn = 40 := rfl
      by_cases short : body.length < 40
      · rw [Fails.bind_iff, readBody_fails, size]
        exact iff_of_true (.inl short) (.inl short)
      · have bound := (Packed.ofBytes body : FuseWriteIn).size.toNat_lt
        rw [readBody_eq (α := FuseWriteIn) (Nat.not_lt.mp short)]
        simp only [bind, Except.bind, start, Fails.ite_iff, short, false_or, Fails.error_iff,
          Fails.pure_iff, and_true, and_false, or_false]
        omega
  | forget =>
      simp only [dispatch]
      by_cases short : body.length < 8
      · obtain ⟨e, failed⟩ := (readBody_fails FuseForgetIn body).mpr short
        rw [failed]
        exact iff_of_true ⟨e, rfl⟩ short
      · rw [readBody_eq (α := FuseForgetIn) (Nat.not_lt.mp short)]
        refine iff_of_false ?_ short
        rintro ⟨e, same⟩
        cases on : ops.forget <;> simp only [on] at same <;> cases same
  | batchForget =>
      simp only [dispatch]
      cases on : ops.forget with
      | false => simp [Malformed, EnabledOps.enables, on]
      | true =>
          by_cases short : body.length < 8
          · obtain ⟨e, failed⟩ := (readBody_fails FuseBatchForgetIn body).mpr short
            rw [failed]
            exact iff_of_true ⟨e, rfl⟩ ⟨on, short⟩
          · rw [readBody_eq (α := FuseBatchForgetIn) (Nat.not_lt.mp short)]
            refine iff_of_false ?_ fun bad => short bad.2
            simp [batchForgets_ok]

/-- An arm that is left with an error has queued nothing. -/
theorem dispatch_failed (header : FuseInHeader) (buf nbytes : Nat) (o : Opcode)
    (failed : Fails (dispatch ops header body buf nbytes guard heap o).result) :
    (dispatch ops header body buf nbytes guard heap o).pushed = [] ∧
      (dispatch ops header body buf nbytes guard heap o).finished = false := by
  cases kind : o.unanswered with
  | false =>
      obtain ⟨result, exit⟩ | ⟨r, fresh, exit⟩ :=
        dispatch_served ops header body buf nbytes guard heap kind
      · rw [exit]
        exact ⟨rfl, rfl⟩
      · rw [exit] at failed
        simp at failed
  | true =>
      have exit := dispatch_unanswered ops header body buf nbytes guard heap kind
      generalize dispatch ops header body buf nbytes guard heap o = left at exit failed
      cases exit with
      | truncated e short => exact ⟨rfl, rfl⟩
      | shortBatch e => exact ⟨rfl, rfl⟩
      | forget rs forgets long | batch rs forgets | destroy => simp at failed

theorem guarded_made {o : Opcode} {enabled : Bool} {built : Except Fault (Request × ArcHeap Bytes)}
    (made : enabled = true → Returns (fun p => p.1.Made ops body o) built) :
    ∀ r ∈ (if enabled then queueOne guard heap built else unserved guard heap).pushed,
      r.Made ops body o := by
  intro r member
  cases enabled with
  | false => cases member
  | true =>
      obtain ⟨e, left⟩ | ⟨r', heap', made', queued⟩ := queueOne_cases guard heap (made rfl)
      · rw [if_pos rfl, left] at member
        cases member
      · rw [if_pos rfl, queued] at member
        rw [List.mem_singleton.mp member]
        exact made'

theorem forget_made {o : Opcode} (code : o = .forget ∨ o = .batchForget) (on : ops.forget = true)
    {r : Request} (forget : r.isForget = true) : r.Made ops body o := by
  cases r with
  | forget r => rcases code with rfl | rfl <;> exact ⟨on, rfl, by simp [Request.names], trivial⟩
  | _ => cases forget

/-- What the arms queue is made for the opcode and of the body. -/
theorem dispatch_made (header : FuseInHeader) (buf nbytes : Nat) (o : Opcode) :
    ∀ r ∈ (dispatch ops header body buf nbytes guard heap o).pushed, r.Made ops body o := by
  cases o with
  | destroy | interrupt | init => simp [dispatch, unserved]
  | lookup | unlink | rmdir =>
      exact guarded_made fun on => Returns.pure
        ⟨on, rfl, by simp [Request.names, nameFromBytes_noNul], trivial⟩
  | getattr | statfs | readlink =>
      exact guarded_made fun on => Returns.pure ⟨on, rfl, by simp [Request.names], trivial⟩
  | setattr | «open» | release =>
      exact guarded_made fun on => Returns.bind fun _ _ =>
        Returns.pure ⟨on, rfl, by simp [Request.names], trivial⟩
  | read | readdir | readdirplus =>
      refine guarded_made fun on => Returns.bind fun readIn read => ?_
      rw [readBody_ok read]
      exact Returns.pure ⟨on, rfl, by simp [Request.names], rfl⟩
  | mknod | mkdir | create =>
      refine guarded_made fun on => Returns.bind fun _ _ => Returns.bind fun name read => ?_
      have clean := nameAfter_noNul _ body name read
      exact Returns.pure ⟨on, rfl, by simpa [Request.names] using clean, trivial⟩
  | rename2 =>
      refine guarded_made fun on => Returns.bind fun _ _ => Returns.bind fun names read => ?_
      have clean := twoNamesAfter_noNul _ body names read
      exact Returns.pure ⟨on, rfl, by simpa [Request.names] using clean, trivial⟩
  | write =>
      refine guarded_made fun on => Returns.bind fun writeIn read =>
        Returns.ite (fun _ => Returns.error) fun _ => ?_
      refine Returns.ite (fun _ => Returns.error) fun _ => ?_
      rw [readBody_ok read]
      exact Returns.pure ⟨on, rfl, by simp [Request.names], rfl⟩
  | listxattr =>
      refine guarded_made fun on => Returns.bind fun getxattrIn read => ?_
      rw [readBody_ok read]
      refine Returns.ite (fun _ => ?_) fun _ => ?_
      · exact Returns.pure ⟨on, rfl, by simp [Request.names], trivial⟩
      · exact Returns.pure ⟨on, rfl, by simp [Request.names], rfl, rfl⟩
  | getxattr =>
      refine guarded_made fun on => Returns.bind fun getxattrIn read =>
        Returns.bind fun name named => ?_
      have clean := nameAfter_noNul _ body name named
      rw [readBody_ok read]
      refine Returns.ite (fun _ => ?_) fun _ => ?_
      · exact Returns.pure ⟨on, rfl, by simpa [Request.names] using clean, trivial⟩
      · exact Returns.pure ⟨on, rfl, by simpa [Request.names] using clean, rfl⟩
  | forget =>
      simp only [dispatch]
      cases readBody FuseForgetIn body with
      | error e => simp
      | ok forgetIn =>
          cases on : ops.forget with
          | false => simp
          | true =>
              intro r member
              rw [List.mem_singleton.mp member]
              exact forget_made (.inl rfl) on rfl
  | batchForget =>
      simp only [dispatch]
      cases on : ops.forget with
      | false => simp
      | true =>
          cases readBody FuseBatchForgetIn body with
          | error e => simp
          | ok batchIn =>
              intro r member
              exact forget_made (.inr rfl) on
                (batchForgets_isForget body 0 batchIn.count.toNat [] (by simp) r member)

end arms

/-- What `process_request` may do with a message once INIT is over. -/
structure Parsed (fuse : Fuse) (message : Bytes)
    (out : Except Fault Unit × Fuse × Host × ArcHeap Bytes) : Prop where
  inBounds : out.1 ≠ .error .panic
  refused : Fails out.1 ↔ Rejects fuse.ops message
  unchanged : Fails out.1 →
    out.2.1.pending = fuse.pending ∧ out.2.1.initDone = fuse.initDone ∧
      out.2.1.finished = fuse.finished
  queued : out.1 = .ok () → ∃ rs, out.2.1.pending = fuse.pending ++ rs ∧
    (rs ≠ [] → ∃ o, Opcode.fromU32 (Packed.ofBytes message : FuseInHeader).opcode = some o ∧
      fuse.ops.enables o = true ∧ ∀ r ∈ rs, r.MadeFor o) ∧
    ∀ r ∈ rs, ∀ name ∈ r.names, 0 ∉ name

theorem accepted_eq_none {message : Bytes} (bad : accepted message = none) (ops : EnabledOps) :
    Rejects ops message := by
  simp only [accepted] at bad
  split at bad
  · split at bad
    · cases bad
    · next other => exact .inr (.inl other)
  · next short => exact .inl (Nat.not_le.mp short)

theorem accepted_eq_some {message body : Bytes} {header : FuseInHeader}
    (good : accepted message = some (header, body)) :
    40 ≤ message.length ∧ header = Packed.ofBytes message ∧ header.len.toNat = message.length ∧
      body = message.drop 40 := by
  simp only [accepted] at good
  split at good
  · next long =>
      split at good
      · next same =>
          cases good
          exact ⟨long, rfl, same, rfl⟩
      · cases good
  · cases good

/-- The queue after an accepted message, with the requests that were made of it. -/
theorem serve_made (fuse : Fuse) (header : FuseInHeader) (body : Bytes) (buf nbytes : Nat)
    (host : Host) (heap : ArcHeap Bytes) :
    ∃ rs, (fuse.serve header body buf nbytes host heap).2.1.pending = fuse.pending ++ rs ∧
      (rs ≠ [] → ∃ o, Opcode.fromU32 header.opcode = some o ∧ ∀ r ∈ rs,
        r.Made fuse.ops body o) := by
  unfold Fuse.serve
  cases code : Opcode.fromU32 header.opcode with
  | none => exact ⟨[], (List.append_nil _).symm, fun some => absurd rfl some⟩
  | some o => exact ⟨_, rfl, fun _ => ⟨o, rfl, dispatch_made header buf nbytes o⟩⟩

/-- An accepted message is refused where its arm refuses it, and then nothing has changed. -/
theorem serve_fails (fuse : Fuse) (header : FuseInHeader) (body : Bytes) (buf : Nat) (host : Host)
    (heap : ArcHeap Bytes) :
    (Fails (fuse.serve header body buf (40 + body.length) host heap).1 ↔
      ∃ o, Opcode.fromU32 header.opcode = some o ∧ Malformed fuse.ops body o) ∧
    (Fails (fuse.serve header body buf (40 + body.length) host heap).1 →
      (fuse.serve header body buf (40 + body.length) host heap).2.1 = fuse) := by
  unfold Fuse.serve
  cases code : Opcode.fromU32 header.opcode with
  | none => simp
  | some o =>
      dsimp only
      refine ⟨?_, ?_⟩
      · rw [dispatch_fails_iff]
        simp
      · intro failed
        obtain ⟨pushed, finished⟩ := dispatch_failed header buf _ o failed
        rw [pushed, finished, List.append_nil, Bool.or_false]

/-- The parser accepts exactly its grammar, and an error changes nothing. -/
theorem processRequest_grammar (fuse : Fuse) (buf nbytes : Nat) (host : Host) (heap : ArcHeap Bytes)
    (inside : nbytes ≤ (heap.value buf).length) (ready : fuse.initDone = true) :
    Parsed fuse ((heap.value buf).take nbytes) (fuse.processRequest buf nbytes host heap) := by
  have length : ((heap.value buf).take nbytes).length = nbytes := List.length_take_of_le inside
  have filled : heap.value buf = (heap.value buf).take nbytes ++ (heap.value buf).drop nbytes :=
    (List.take_append_drop nbytes _).symm
  generalize (heap.value buf).take nbytes = message at length filled
  generalize (heap.value buf).drop nbytes = rest at filled
  subst length
  have clean : (fuse.processRequest buf message.length host heap).1 ≠ .error .panic :=
    fun panicked =>
    processRequest_noPanic fuse buf message rest host heap filled .panic panicked rfl
  cases good : accepted message with
  | none =>
      obtain ⟨e, rejected⟩ := processRequest_rejected fuse host filled good
      rw [rejected] at clean ⊢
      refine ⟨clean, iff_of_true ⟨e, rfl⟩ (accepted_eq_none good fuse.ops),
        fun _ => ⟨rfl, rfl, rfl⟩, ?_⟩
      intro ok
      cases ok
  | some p =>
      obtain ⟨header, body⟩ := p
      rw [processRequest_serve fuse host filled good ready] at clean ⊢
      obtain ⟨long, rfl, len, rfl⟩ := accepted_eq_some good
      have total : 40 + (message.drop 40).length = message.length := by
        rw [List.length_drop]
        omega
      obtain ⟨fails, unchanged⟩ :=
        serve_fails fuse (Packed.ofBytes message) (message.drop 40) buf host heap
      obtain ⟨rs, queue, made⟩ :=
        serve_made fuse (Packed.ofBytes message) (message.drop 40) buf message.length host heap
      rw [total] at fails unchanged
      refine ⟨clean, ?_, ?_, fun _ => ⟨rs, queue, ?_, ?_⟩⟩
      · rw [fails, Rejects]
        simp [len, Nat.not_lt.mpr long]
      · intro failed
        rw [unchanged failed]
        exact ⟨rfl, rfl, rfl⟩
      · intro some
        obtain ⟨o, code, all⟩ := made some
        obtain ⟨r, member⟩ := List.exists_mem_of_ne_nil rs some
        exact ⟨o, code, (all r member).enabled, fun r member => (all r member).variant⟩
      · intro r member
        obtain ⟨o, -, all⟩ := made (List.ne_nil_of_mem member)
        exact (all r member).noNul

/-- A WRITE whose 8 bytes of data are missing. -/
def shortWrite : Bytes :=
  Packed.bytes (FuseInHeader.mk 80 16 1 1 0 0 0 0 0) ++ Packed.bytes (FuseWriteIn.mk 0 0 8 0 0 0 0)

theorem processRequest_grammar_write :
    Fails ((World.mounted { write := true } true (fun _ => .ok) 4096).fuse.processRequest 0 80
      (World.mounted { write := true } true (fun _ => .ok) 4096).host
        ⟨fun _ => shortWrite, fun _ => 1, 1⟩).1 := by
  have parsed :=
    processRequest_grammar (World.mounted { write := true } true (fun _ => .ok) 4096).fuse 0 80
      (World.mounted { write := true } true (fun _ => .ok) 4096).host
        ⟨fun _ => shortWrite, fun _ => 1, 1⟩ (by decide) rfl
  have whole : shortWrite.take 80 = shortWrite := rfl
  refine parsed.refused.mpr (.inr (.inr ⟨.write, ?_, rfl, .inr ?_⟩))
  · rw [whole]
    rfl
  · rw [whole]
    decide

end ProxmoxFuse
