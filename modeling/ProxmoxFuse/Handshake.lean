import ProxmoxFuse.Process
import ProxmoxFuse.Stream

/-!
# The handshake

A session is in one of two phases, told apart by `init_done`. The first takes
nothing but INIT and ends at the first INIT that is answered; the second takes
everything else and refuses another INIT.
-/
namespace ProxmoxFuse

/-- A session that was just mounted. -/
def fresh (ops : EnabledOps) (outcome : Nat → WritevResult) (pageSize : Int64) : Fuse × Host :=
  ((World.mounted ops false outcome pageSize).fuse, (World.mounted ops false outcome pageSize).host)

/-- An INIT of version 7 with a whole body. -/
def Delivery.Init (d : Delivery) (header : FuseInHeader) (body : Bytes) : Prop :=
  accepted d.bytes = some (header, body) ∧ header.opcode = 26 ∧ 64 ≤ body.length ∧
    (Packed.ofBytes body : FuseInitIn).major = 7

/-- A message that ends the first phase: an INIT whose reply is taken. -/
def Delivery.Opens (d : Delivery) (s : Fuse × Host) : Prop :=
  (∃ header body, d.Init header body) ∧ s.2.next = .ok

/-- A success reply to an INIT. -/
def InitReply (ops : EnabledOps) (pageSize : Int64) (a : Attempt) : Prop :=
  ∃ unique initIn, a = replyAttempt unique 0 [Packed.bytes (negotiateInit initIn ops pageSize)]
    64 a.result

theorem initRequest_ok_iff {header : FuseInHeader} {body : Bytes} {initIn : FuseInitIn} :
    initRequest header body = .ok initIn ↔
      header.opcode = 26 ∧ 64 ≤ body.length ∧ initIn.major = 7 ∧ initIn = Packed.ofBytes body := by
  have size : Packed.size FuseInitIn = 64 := rfl
  have code : Opcode.fromU32 header.opcode = some .init ↔ header.opcode = 26 :=
    Opcode.fromU32_eq_some
  rw [initRequest]
  by_cases init : header.opcode = 26
  · rw [if_neg (not_not.mpr (code.mpr init))]
    by_cases long : 64 ≤ body.length
    · rw [readBody_eq (size.symm ▸ long)]
      dsimp only
      split
      · next other =>
          refine iff_of_false (Fails.ne_ok ⟨_, rfl⟩ _) ?_
          rintro ⟨-, -, major, rfl⟩
          exact other major
      · next major =>
          constructor
          · intro ok
            cases ok
            exact ⟨init, long, not_not.mp major, rfl⟩
          · rintro ⟨-, -, -, rfl⟩
            rfl
    · obtain ⟨e, short⟩ := (readBody_fails FuseInitIn body).mpr (Nat.not_le.mp long)
      rw [short]
      exact iff_of_false (Fails.ne_ok ⟨_, rfl⟩ _) fun fields => long fields.2.1
  · rw [if_pos (fun same => init (code.mp same))]
    exact iff_of_false (Fails.ne_ok ⟨_, rfl⟩ _) fun fields => init fields.1

section step
variable {d : Delivery} {fuse : Fuse} {host : Host}

/-- An INIT that is answered opens the session and changes nothing else. -/
theorem Delivery.process_opening {header : FuseInHeader} {body : Bytes}
    (waiting : fuse.initDone = false) (init : d.Init header body) (sent : host.next = .ok) :
    d.process (fuse, host) =
      (.ok (), { fuse with initDone := true },
        host.extend [initAttempt fuse header (Packed.ofBytes body) host]) := by
  obtain ⟨good, opcode, long, major⟩ := init
  have request := initRequest_ok_iff.mpr ⟨opcode, long, major, rfl⟩
  rw [Delivery.process, processRequest_init d.filled good waiting request sent]

/-- What a message is good for before the session is open. -/
theorem Delivery.process_waiting (waiting : fuse.initDone = false) (shut : ¬ d.Opens (fuse, host)) :
    ∃ e made, d.process (fuse, host) = (.error e, fuse, host.extend made) ∧
      (made = [] ∨ ∃ header body, d.Init header body ∧ host.next ≠ .ok ∧
        made = [initAttempt fuse header (Packed.ofBytes body) host]) := by
  cases good : accepted d.bytes with
  | none =>
      obtain ⟨e, rejected⟩ := processRequest_rejected fuse host d.filled good
      refine ⟨e, [], ?_, .inl rfl⟩
      rw [Delivery.process, rejected, Host.extend_nil]
  | some p =>
      obtain ⟨header, body⟩ := p
      have handled : d.process (fuse, host) = fuse.handleInit header body host := by
        rw [Delivery.process, Fuse.processRequest, d.filled,
          (checkHeader_ok_iff d.bytes d.rest (header, body)).mpr good]
        dsimp only
        rw [if_pos (by simp [waiting])]
      rw [handled, handleInit_eq]
      cases request : initRequest header body with
      | error e => exact ⟨e, [], by rw [Host.extend_nil], .inl rfl⟩
      | ok initIn =>
          obtain ⟨opcode, long, major, rfl⟩ := initRequest_ok_iff.mp request
          have init : d.Init header body := ⟨good, opcode, long, major⟩
          cases sent : host.next with
          | ok => exact absurd ⟨⟨header, body, init⟩, sent⟩ shut
          | err errno => exact ⟨_, _, rfl, .inr ⟨header, body, init, by simp, rfl⟩⟩

/-- An open session has no use for an INIT. -/
theorem Delivery.process_repeated {header : FuseInHeader} {body : Bytes}
    (ready : fuse.initDone = true) (good : accepted d.bytes = some (header, body))
    (opcode : header.opcode = 26) :
    d.process (fuse, host) = (.ok (), fuse, host.extend (enosys header.unique host.next)) := by
  have code : Opcode.fromU32 header.opcode = some .init := Opcode.fromU32_eq_some.mpr opcode
  rw [Delivery.process, processRequest_serve fuse host d.filled good ready]
  simp only [Fuse.serve, code, dispatch, unserved, dropLive, RequestGuard.drop_eq, List.append_nil,
    Bool.or_false]
  rfl

/-- The phase changes at a message that opens the session, and never back. -/
theorem Delivery.process_initDone :
    (d.process (fuse, host)).2.1.initDone = true ↔ fuse.initDone = true ∨ d.Opens (fuse, host) := by
  by_cases ready : fuse.initDone = true
  · obtain ⟨heap, view⟩ := d.processed fuse host
    exact iff_of_true (view.initDone_mono ready) (.inl ready)
  · have waiting : fuse.initDone = false := by simpa using ready
    by_cases opens : d.Opens (fuse, host)
    · obtain ⟨⟨header, body, init⟩, sent⟩ := opens
      rw [Delivery.process_opening waiting init sent]
      exact iff_of_true rfl (.inr ⟨⟨header, body, init⟩, sent⟩)
    · obtain ⟨e, made, refused, -⟩ := Delivery.process_waiting waiting opens
      rw [refused]
      exact iff_of_false ready (not_or_intro ready opens)

end step

/-! ### Runs -/

/-- What holds of a session between two messages. -/
structure Phase (ops : EnabledOps) (pageSize : Int64) (s : Fuse × Host) : Prop where
  operations : s.1.ops = ops
  page : s.2.pageSize = pageSize
  waiting : s.1.initDone = false →
    s.1.pending = [] ∧ s.1.finished = false ∧ ∀ a ∈ s.2.log, InitReply ops pageSize a

theorem fresh_phase (ops : EnabledOps) (outcome : Nat → WritevResult) (pageSize : Int64) :
    Phase ops pageSize (fresh ops outcome pageSize) :=
  ⟨rfl, rfl, fun _ => ⟨rfl, rfl, fun _ member => absurd member List.not_mem_nil⟩⟩

section runs
variable {ops : EnabledOps} {pageSize : Int64} {s : Fuse × Host}

theorem Phase.initAttempt_eq (phase : Phase ops pageSize s) (header : FuseInHeader)
    (initIn : FuseInitIn) :
    initAttempt s.1 header initIn s.2 =
      replyAttempt header.unique 0 [Packed.bytes (negotiateInit initIn ops pageSize)] 64
        s.2.next := by
  rw [initAttempt, phase.operations, phase.page]

theorem Phase.process (phase : Phase ops pageSize s) (d : Delivery) :
    Phase ops pageSize (d.process s).2 := by
  obtain ⟨fuse, host⟩ := s
  obtain ⟨heap, view⟩ := d.processed fuse host
  refine ⟨view.ops_eq.trans phase.operations, view.pageSize_eq.trans phase.page, ?_⟩
  intro waiting
  have neither := mt Delivery.process_initDone.mpr (Bool.eq_false_iff.mp waiting)
  have before : fuse.initDone = false := by simpa using fun ready => neither (.inl ready)
  obtain ⟨e, made, refused, only⟩ :=
    Delivery.process_waiting before fun opens => neither (.inr opens)
  obtain ⟨queue, unfinished, log⟩ := phase.waiting before
  rw [refused]
  refine ⟨queue, unfinished, ?_⟩
  intro a member
  rcases List.mem_append.mp member with old | new
  · exact log a old
  · rcases only with rfl | ⟨header, body, -, -, rfl⟩
    · cases new
    · rw [List.mem_singleton.mp new, phase.initAttempt_eq]
      exact ⟨header.unique, Packed.ofBytes body, rfl⟩

theorem feed_cons (s : Fuse × Host) (d : Delivery) (ds : List Delivery) :
    feed s (d :: ds) = feed (d.process s).2 ds :=
  rfl

theorem Phase.feed (phase : Phase ops pageSize s) (ds : List Delivery) :
    Phase ops pageSize (feed s ds) := by
  induction ds generalizing s with
  | nil => exact phase
  | cons d ds ih => exact ih (phase.process d)

/-- A session is open after some messages exactly if one of them opened it. -/
theorem feed_initDone (s : Fuse × Host) (ds : List Delivery) :
    (feed s ds).1.initDone = true ↔
      s.1.initDone = true ∨ ∃ front m back, ds = front ++ m :: back ∧ m.Opens (feed s front) := by
  induction ds generalizing s with
  | nil => simp [feed]
  | cons d ds ih =>
      rw [feed_cons, ih, Delivery.process_initDone, or_assoc]
      refine or_congr_right ?_
      constructor
      · rintro (opens | ⟨front, m, back, rfl, opens⟩)
        · exact ⟨[], d, ds, rfl, opens⟩
        · exact ⟨d :: front, m, back, rfl, opens⟩
      · rintro ⟨front, m, back, split, opens⟩
        cases front with
        | nil =>
            cases split
            exact .inl opens
        | cons first front =>
            cases split
            exact .inr ⟨front, m, back, rfl, opens⟩

end runs

/-- The part that a message has in the handshake of a session. -/
structure Handshake (ops : EnabledOps) (pageSize : Int64) (s : Fuse × Host) (d : Delivery) :
    Prop where
  shut : s.1.initDone = false → s.1.pending = [] ∧ s.1.finished = false ∧ ∀ a ∈ s.2.log,
    InitReply ops pageSize a
  waits : s.1.initDone = false → ¬ d.Opens s → Fails (d.process s).1 ∧ (d.process s).2.1 = s.1 ∧
    ((d.process s).2.2 = s.2 ∨ ∃ header body, d.Init header body ∧ s.2.next ≠ .ok ∧
      (d.process s).2.2 = s.2.extend
      [replyAttempt header.unique 0
        [Packed.bytes (negotiateInit (Packed.ofBytes body) ops pageSize)] 64 s.2.next])
  opens : s.1.initDone = false → s.2.next = .ok → ∀ header body, d.Init header body →
    d.process s = (.ok (), { s.1 with initDone := true }, s.2.extend
      [replyAttempt header.unique 0
        [Packed.bytes (negotiateInit (Packed.ofBytes body) ops pageSize)] 64 .ok])
  stays : s.1.initDone = true → (d.process s).2.1.initDone = true
  repeated : s.1.initDone = true → ∀ header body, accepted d.bytes = some (header, body) →
    header.opcode = 26 →
    header.unique ≠ 0 → (d.process s).2 =
      (s.1, s.2.extend [replyAttempt header.unique (-ENOSYS) [[]] 0 s.2.next])

theorem Phase.handshake {ops : EnabledOps} {pageSize : Int64} {s : Fuse × Host}
    (phase : Phase ops pageSize s) (d : Delivery) : Handshake ops pageSize s d := by
  refine ⟨phase.waiting, ?_, ?_, ?_, ?_⟩
  · intro waiting shut
    obtain ⟨e, made, refused, only⟩ := Delivery.process_waiting waiting shut
    rw [refused]
    refine ⟨⟨e, rfl⟩, rfl, ?_⟩
    rcases only with rfl | ⟨header, body, init, unsent, rfl⟩
    · exact .inl (Host.extend_nil _)
    · exact .inr ⟨header, body, init, unsent, by rw [phase.initAttempt_eq]⟩
  · intro waiting sent header body init
    have reply := phase.initAttempt_eq header (Packed.ofBytes body)
    rw [sent] at reply
    rw [← reply]
    exact Delivery.process_opening waiting init sent
  · intro ready
    exact Delivery.process_initDone.mpr (.inl ready)
  · intro ready header body good opcode armed
    rw [Delivery.process_repeated ready good opcode, enosys, if_neg armed]

/-- Whatever messages were fed to a fresh session, the next one keeps to the handshake,
and the session is open exactly if one of them was an INIT that was answered. -/
theorem init_first_and_once (ops : EnabledOps) (outcome : Nat → WritevResult) (pageSize : Int64)
    (before : List Delivery) (d : Delivery) :
    Handshake ops pageSize (feed (fresh ops outcome pageSize) before) d ∧
      ((feed (fresh ops outcome pageSize) before).1.initDone = true ↔
        ∃ front m back, before = front ++ m :: back ∧
          m.Opens (feed (fresh ops outcome pageSize) front)) := by
  refine ⟨((fresh_phase ops outcome pageSize).feed before).handshake d, ?_⟩
  rw [feed_initDone]
  exact or_iff_right Bool.false_ne_true

end ProxmoxFuse
