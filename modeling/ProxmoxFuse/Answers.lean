import ProxmoxFuse.Obligations

/-!
# Which messages are answered

Properties of the replies over whole runs, read off the ledger: no reply
follows an accepted one, forgets stay unanswered, and nothing else does. The
last two hold exactly under a condition on the message or on the way a request
is given up, since a guard is dropped armed on one exit of the dispatcher and
disarmed too early by two reply methods.
-/
namespace ProxmoxFuse

section runs
variable {τ : Type} [Timeout τ]

/-- Groups in which nothing follows an accepted attempt. -/
def StopsOnce (_ : UInt64) (as : List Attempt) : Prop := as.Pairwise fun a _ => a.result ≠ .ok

theorem stopsOnce_settles : Settles τ (fun _ _ _ => True) StopsOnce where
  left u o := Plan.attempts_pairwise u o o .refused
  dropped r first second _ _ := Plan.attempts_pairwise r.unique first second r.dropPlan
  consumed r c first second _ _ _ := Plan.attempts_pairwise r.unique first second c.plan

/-- The ledger of a run from the mount on. -/
theorem mounted_follows {ops : EnabledOps} {initDone : Bool} {outcome : Nat → WritevResult}
    {pageSize : Int64} {w : World}
    (run : Reaches τ (World.mounted ops initDone outcome pageSize) w) :
    ∃ l : Ledger UInt64 Attempt, l.Sound Attempt.unique StopsOnce ∧ Tracks w l := by
  obtain ⟨_, l, _, ledger, tracks, _⟩ := run_follows (l := ⟨[], [], [], []⟩) stopsOnce_settles
    (mounted_tracks ops initDone outcome pageSize) (.inr fun a => List.pairwise_singleton _ a) run
  exact ⟨l, Ledger.Sound.empty.run ledger, tracks⟩

/-- Once a `writev` for a unique has succeeded no other is attempted for it, and no
`writev` carries a unique that was not read before. -/
theorem no_reply_after_accepted (ops : EnabledOps) (initDone : Bool) (outcome : Nat → WritevResult)
    (pageSize : Int64) (w : World) (run : Reaches τ (World.mounted ops initDone outcome pageSize) w)
    (distinct : (uniques w.trace).Nodup) :
    w.host.log.Pairwise (fun a b => a.result = .ok → b.unique ≠ a.unique) ∧
      ∀ a ∈ w.host.log, a.unique ∈ uniques w.trace := by
  obtain ⟨l, sound, tracks⟩ := mounted_follows run
  rw [← tracks.log, ← tracks.seen]
  rw [← tracks.seen] at distinct
  constructor
  · exact sound.once distinct fun _ _ stops => stops
  · intro a member
    exact sound.due_seen.subset (sound.log_due a member)

end runs

/-- A LOOKUP of "a" in the root, with unique 2. -/
def lookupMessage : Message :=
  ⟨Packed.bytes (FuseInHeader.mk 42 1 2 1 0 0 0 0 0) ++ [97, 0], by decide⟩

/-- A 40-byte message of an opcode the library does not know, with unique 1. -/
def unknownHeader : FuseInHeader := ⟨40, 12, 1, 1, 0, 0, 0, 0, 0⟩

/-- A LOOKUP that is refused, and a message of an unknown kind. -/
theorem no_reply_after_accepted_unknown :
    ∃ w : World, Reaches (UInt64 × UInt32)
      (World.mounted { lookup := true } true (fun _ => .ok) 4096) w ∧
      w.host.log.map Attempt.unique = [2, 1] ∧
      w.host.log.Pairwise (fun a b => a.result = .ok → b.unique ≠ a.unique) := by
  have run : Reaches (UInt64 × UInt32) (World.mounted { lookup := true } true (fun _ => .ok) 4096)
      _ :=
    (Relation.ReflTransGen.single (.takes (r := .lookup ⟨⟨2⟩, 1, [97]⟩) rfl ⟨rfl, rfl, rfl⟩ rfl rfl
      (m := lookupMessage) (accepted_bytes rfl) rfl rfl)).tail (.gives rfl (.fail _ ENOENT) trivial)
      |>.tail (.reads rfl ⟨rfl, rfl, rfl⟩ rfl rfl
        (m := ⟨Packed.bytes unknownHeader ++ [], by decide⟩) (accepted_bytes rfl))
  refine ⟨_, run, ?_, (no_reply_after_accepted _ _ _ _ _ run ?_).1⟩
  · decide +kernel
  · decide +kernel

/-! ### Forgets -/

/-- A FORGET with an armed guard whose body is too short for its struct. -/
def Message.TruncatedForget (m : Message) (u : UInt64) : Prop :=
  ∃ header body, accepted m.bytes = some (header, body) ∧ Opcode.fromU32 header.opcode =
    some .forget ∧
    body.length < 8 ∧ header.unique = u ∧ u ≠ 0

theorem Processed.log_grows {fuse fuse' : Fuse} {buf : Nat} {bytes : Bytes} {host host' : Host}
    {heap heap' : ArcHeap Bytes} {result : Except Fault Unit}
    (view : Processed fuse buf bytes host heap (result, fuse', host', heap')) :
    host.log <+: host'.log := by
  cases view <;> first | exact List.prefix_refl _ | exact List.prefix_append _ _

/-- Its guard is dropped on the way out and answers. -/
theorem Processed.truncated_answered {fuse fuse' : Fuse} {buf : Nat} {m : Message}
    {host host' : Host} {heap heap' : ArcHeap Bytes} {result : Except Fault Unit} {u : UInt64}
    (view : Processed fuse buf m.bytes host heap (result, fuse', host', heap'))
    (ready : fuse.initDone = true) (truncated : m.TruncatedForget u) :
    ∃ a ∈ host'.log, a.unique = u := by
  obtain ⟨header, body, good, opcode, short, rfl, armed⟩ := truncated
  cases view with
  | left _ header' body' good' =>
      rw [good] at good'
      cases good'
      refine ⟨replyAttempt header.unique (-ENOSYS) [[]] 0 host.next, ?_, replyAttempt_unique ..⟩
      simp [enosys, armed]
  | rejected _ bad => simp [good] at bad
  | initRefused _ _ _ _ phase => simp [ready] at phase
  | initUnsent _ _ _ _ _ phase => simp [ready] at phase
  | initDone _ _ _ _ phase => simp [ready] at phase
  | queued _ _ _ _ good' _ opcode' answered => grind [Opcode.unanswered]
  | forgets _ _ _ _ _ good' _ opcode' forgetting => grind
  | destroyed _ _ good' _ opcode' => grind

/-- From `w` to `w'` the log grew, and every truncated forget read was answered. -/
structure Grown (w w' : World) : Prop where
  ready : w'.fuse.initDone = true
  log : w.host.log <+: w'.host.log
  answered : ∃ new, messages w'.trace = messages w.trace ++ new ∧
    ∀ m ∈ new, ∀ u, m.TruncatedForget u → ∃ a ∈ w'.host.log, a.unique = u

theorem Grown.of_log {w w' : World} (ready : w'.fuse.initDone = true)
    (log : w.host.log <+: w'.host.log) (trace : messages w'.trace = messages w.trace) :
    Grown w w' :=
  ⟨ready, log, [], by simp [trace], by simp⟩

theorem Grown.trans {w w' w₂ : World} (first : Grown w w') (second : Grown w' w₂) : Grown w w₂ := by
  obtain ⟨new, trace, answered⟩ := first.answered
  obtain ⟨new', trace', answered'⟩ := second.answered
  refine ⟨second.ready, first.log.trans second.log,
    new ++ new', by rw [trace', trace, List.append_assoc], ?_⟩
  intro m member u truncated
  rcases List.mem_append.mp member with old | late
  · obtain ⟨a, made, same⟩ := answered m old u truncated
    exact ⟨a, second.log.subset made, same⟩
  · exact answered' m late u truncated

theorem turn_grown {w : World} (ready : w.fuse.initDone = true) (t : Turn) :
    Grown w (w.pollTurn t).2 := by
  have effect := w.pollTurn_effect t
  generalize (w.pollTurn t).2 = w' at effect
  cases effect with
  | quiet same => exact .of_log (same.init.trans ready) (same.host ▸ List.prefix_refl _) same.trace
  | empty m bad w₁ same trace =>
      refine ⟨same.init.trans ready, same.host ▸ List.prefix_refl _, [m],
        trace.trans (by rw [same.trace]), ?_⟩
      rintro m' member u ⟨header, body, good, _⟩
      rw [List.mem_singleton.mp member, bad] at good
      cases good
  | message m w₁ same handled =>
      obtain ⟨buf, heap, result, fuse, host, heap', trace, held, fuse_eq, host_eq, view⟩ := handled
      have ready₁ : w₁.fuse.initDone = true := same.init.trans ready
      refine ⟨fuse_eq ▸ view.initDone_mono ready₁, ?_, [m], trace.trans (by rw [same.trace]), ?_⟩
      · rw [host_eq, ← same.host]
        exact view.log_grows
      · intro m' member u truncated
        rw [List.mem_singleton.mp member] at truncated
        rw [host_eq]
        exact view.truncated_answered ready₁ truncated

theorem foldl_drop_grows (rs : List Request) (host : Host) :
    host.log <+: (rs.foldl (fun host r => r.drop host) host).log := by
  induction rs generalizing host with
  | nil => exact List.prefix_refl _
  | cons r rs ih =>
      refine List.IsPrefix.trans ?_ (ih (r.drop host))
      rw [r.drop_run host]
      exact List.prefix_append _ _

theorem run_grown {τ : Type} [Timeout τ] {w w' : World} (ready : w.fuse.initDone = true)
    (run : Reaches τ w w') : Grown w w' := by
  refine run_induct (P := Grown w) (fun w₁ w₂ _ grown last => grown.trans ?_)
    (.of_log ready (List.prefix_refl _) rfl) run
  cases last with
  | poll live turns =>
      apply World.pollNext_induct (P := Grown _) ?_ _ turns
        (.of_log grown.ready (List.prefix_refl _) rfl)
      exact fun w₁ t before => before.trans (turn_grown before.ready t)
  | call front back r m split c => exact .of_log grown.ready (List.prefix_refl _) rfl
  | consume front back r m split c allowed =>
      refine .of_log grown.ready ?_ rfl
      simp only [World.consume]
      rw [c.run_eq]
      exact List.prefix_append _ _
  | dropFuse live => exact .of_log grown.ready (foldl_drop_grows _ _) rfl

theorem Message.unique_of_owes {m : Message} {u : UInt64} (owes : m.owes = some u) :
    m.unique? = some u := by
  unfold Message.owes at owes
  split at owes
  · cases owes
  · next header body good =>
      have same : header.unique = u := by
        split at owes
        · cases owes
        · cases owes
        · split at owes
          · simpa using owes
          · cases owes
        · simpa using owes
      simp [Message.unique?, good, same]

/-- A FORGET or BATCH_FORGET read after INIT is never answered, whatever becomes of
the requests made from it, exactly if it is a batch, or is long enough for its
struct, or its guard is not armed. -/
theorem forget_unanswered_iff {τ : Type} [Timeout τ] (ops : EnabledOps) (initDone : Bool)
    (outcome : Nat → WritevResult) (pageSize : Int64) (w₀ w : World)
    (start : Reaches τ (World.mounted ops initDone outcome pageSize) w₀)
    (ready : w₀.fuse.initDone = true) (run : Reaches τ w₀ w) (before after : List Message)
    (m : Message) (read : messages w.trace = messages w₀.trace ++ (before ++ m :: after))
    (header : FuseInHeader) (body : Bytes) (good : accepted m.bytes = some (header, body))
    (opcode : header.opcode = 2 ∨ header.opcode = 42)
    (others : ∀ m' ∈ messages w₀.trace ++ (before ++ after), ∀ u, m'.unique? = some u →
      u ≠ 0 ∧ u ≠ header.unique) :
    (∀ a ∈ w.host.log, a.unique ≠ header.unique ∧ a.unique ≠ 0) ↔
      header.opcode = 42 ∨ 8 ≤ body.length ∨ header.unique = 0 := by
  constructor
  · intro silent
    by_contra defect
    have forget : header.opcode = 2 := opcode.resolve_right fun batch => defect (.inl batch)
    have truncated : m.TruncatedForget header.unique :=
      ⟨header, body, good, by rw [forget]; rfl, by omega, rfl,
        fun zero => defect (.inr (.inr zero))⟩
    obtain ⟨new, trace, answered⟩ := (run_grown ready run).answered
    have member : m ∈ new := by
      rw [List.append_cancel_left (trace.symm.trans read)]
      simp
    obtain ⟨a, made, same⟩ := answered m member _ truncated
    exact (silent a made).1 same
  · intro condition
    have unowed : m.owes = none := by
      simp only [Message.owes, good]
      rcases opcode with forget | batch
      · rw [forget] at condition ⊢
        exact if_neg fun bad => by grind
      · rw [batch]
        rfl
    obtain ⟨l₀, sound, tracks⟩ := mounted_follows start
    obtain ⟨new, l, trace, ledger, tracks', due⟩ :=
      run_follows stopsOnce_settles tracks (.inl ready) run
    have read' : new = before ++ m :: after := List.append_cancel_left (trace.symm.trans read)
    intro a made
    have owed : a.unique ∈ l.due := (sound.run ledger).log_due a (tracks'.log ▸ made)
    rw [(due ready).2, read'] at owed
    have source : ∃ m' ∈ messages w₀.trace ++ (before ++ after), m'.unique? = some a.unique := by
      rcases List.mem_append.mp owed with old | late
      · have seen := sound.due_seen.subset old
        rw [tracks.seen] at seen
        obtain ⟨m', member, same⟩ := List.mem_filterMap.mp seen
        exact ⟨m', List.mem_append_left _ member, same⟩
      · obtain ⟨m', member, same⟩ := List.mem_filterMap.mp late
        have other : m' ∈ before ++ after := by
          rcases List.mem_append.mp member with front | back
          · exact List.mem_append_left _ front
          · rcases List.mem_cons.mp back with rfl | back
            · simp [unowed] at same
            · exact List.mem_append_right _ back
        exact ⟨m', List.mem_append_right _ other, Message.unique_of_owes same⟩
    obtain ⟨m', member, same⟩ := source
    exact ⟨(others m' member _ same).2, (others m' member _ same).1⟩

/-- A well-formed FORGET of unique 1. -/
def forgetHeader : FuseInHeader := ⟨48, 2, 1, 1, 0, 0, 0, 0, 0⟩

/-- After a LOOKUP that is refused, a FORGET that the consumer takes and gives up. -/
theorem forget_unanswered_complete :
    ∃ w : World, Reaches (UInt64 × UInt32)
        (World.mounted { lookup := true, forget := true } true (fun _ => .ok) 4096) w ∧
      w.requests = [] ∧ w.host.log.map Attempt.unique = [2] ∧
      ∀ a ∈ w.host.log, a.unique ≠ 1 ∧ a.unique ≠ 0 := by
  have good : accepted (Packed.bytes forgetHeader ++ Packed.bytes (FuseForgetIn.mk 3)) =
      some (forgetHeader, Packed.bytes (FuseForgetIn.mk 3)) := accepted_bytes rfl
  have run : Reaches (UInt64 × UInt32)
      (World.mounted { lookup := true, forget := true } true (fun _ => .ok) 4096) _ :=
    (Relation.ReflTransGen.single (.takes (r := .lookup ⟨⟨2⟩, 1, [97]⟩) rfl ⟨rfl, rfl, rfl⟩ rfl rfl
      (m := lookupMessage) (accepted_bytes rfl) rfl rfl)).tail (.gives rfl (.fail _ ENOENT) trivial)
      |>.tail (.takes (r := .forget ⟨⟨1⟩, 1, 3⟩) rfl ⟨rfl, rfl, rfl⟩ rfl rfl
        (m := ⟨Packed.bytes forgetHeader ++ Packed.bytes (FuseForgetIn.mk 3), by decide⟩)
          good rfl rfl)
      |>.tail (.gives rfl (.forget _) trivial)
  refine ⟨_, run, rfl, by decide +kernel, ?_⟩
  refine (forget_unanswered_iff _ _ _ _ _ _ .refl rfl run [lookupMessage] [] _ rfl forgetHeader _
    good (.inl rfl) ?_).mpr (.inr (.inl (by decide)))
  intro m' member u sent
  cases List.mem_singleton.mp member
  cases (show lookupMessage.unique? = some 2 from by decide +kernel).symm.trans sent
  decide

/-- A FORGET that ends with its header is answered with `ENOSYS`. -/
theorem truncated_forget_answered :
    ¬ ∀ w : World, Reaches (UInt64 × UInt32)
      (World.mounted { forget := true } true (fun _ => .ok) 4096) w →
      (messages w.trace).map Message.bytes = [Packed.bytes (FuseInHeader.mk 40 2 1 1 0 0 0 0 0)] →
      ∀ a ∈ w.host.log, a.unique ≠ 1 ∧ a.unique ≠ 0 := by
  intro unanswered
  have run :=
    World.mounted_reads (UInt64 × UInt32) (fun _ _ _ => True) { forget := true } (fun _ => .ok) 4096
      (m := ⟨Packed.bytes (FuseInHeader.mk 40 2 1 1 0 0 0 0 0) ++ [], by decide⟩)
        (accepted_bytes rfl)
  have silent := unanswered _ run (by decide) (replyAttempt 1 (-ENOSYS) [[]] 0 .ok) (by decide)
  exact silent.1 (by decide)

/-! ### Everything else -/

/-- The kernel took the reply, or had cancelled the request. -/
def WritevResult.Delivered (o : WritevResult) : Prop := o = .ok ∨ o = .err ENOENT

/-- At least one attempt was made, and if none was delivered the last one is an error reply. -/
def Answered (as : List Attempt) : Prop :=
  (∃ a ∈ as, a.result.Delivered) ∨ ∃ a, as.getLast? = some a ∧ a.error ≠ 0

/-- Give-ups that answer. Two reply methods disarm the guard before they send, so
that nothing follows if the kernel refuses the reply, or if its length does not
fit; and `fail` with error number 0 is no error reply. -/
def Consume.Answers {τ : Type} : (r : Request) → Consume τ r → WritevResult → Prop
  | _, .fail _ errno, first => errno ≠ 0 ∨ first.Delivered
  | _, .ioFail _ error, first => error.rawOsError.getD EIO ≠ 0 ∨ first.Delivered
  | _, .create _ _ _, first => first.Delivered
  | _, .readVectored r data, first =>
      sliceTotal data > r.size ∨ Framable (sliceTotal data) ∧ first.Delivered
  | _, _, _ => True

/-- When the attempts of a plan answer. -/
def Plan.Answers : Plan → WritevResult → Prop
  | .silent, _ => False
  | .disarmed error _ len, first => Framable len ∧ (error ≠ 0 ∨ first.Delivered)
  | _, _ => True

theorem answered_enosys {u : UInt64} (armed : u ≠ 0) (as : List Attempt) (o : WritevResult) :
    Answered (as ++ enosys u o) := by
  refine .inr ⟨replyAttempt u (-ENOSYS) [[]] 0 o, ?_, ?_⟩
  · simp [enosys, armed]
  · rw [replyAttempt_error]
    decide

theorem answered_single (a : Attempt) : Answered [a] ↔ a.error ≠ 0 ∨ a.result.Delivered := by
  simp [Answered, or_comm]

theorem Plan.answered_iff {u : UInt64} (armed : u ≠ 0) (plan : Plan) (first second : WritevResult) :
    Answered (plan.attempts u first second) ↔ plan.Answers first := by
  cases plan with
  | silent => simp [Plan.attempts, Plan.Answers, Answered]
  | disarmed error slices len =>
      by_cases fits : Framable len
      · simp [Plan.attempts, Plan.Answers, framed, fits, answered_single]
      · simp [Plan.attempts, Plan.Answers, framed, fits, Answered]
  | armed data =>
      refine iff_of_true ?_ trivial
      simp only [Plan.attempts]
      split
      · split
        · next sent => exact (answered_single _).mpr (.inr (.inl sent))
        · exact answered_enosys armed [_] second
      · exact answered_enosys armed [] first
  | cancellable data =>
      refine iff_of_true ?_ trivial
      simp only [Plan.attempts]
      split
      · split
        · next sent => exact (answered_single _).mpr (.inr sent)
        · exact answered_enosys armed [_] second
      · exact answered_enosys armed [] first
  | refused => exact iff_of_true (answered_enosys armed [] first) trivial

theorem framable_zero : Framable 0 := by decide

theorem Request.failPlan_answers {r : Request} (kind : r.isForget = false) (whole : r.Whole)
    (errno : Int32) (first : WritevResult) :
    (r.failPlan errno).Answers first ↔ errno ≠ 0 ∨ first.Delivered := by
  have plain : (Plan.disarmed (-errno) [[]] 0).Answers first ↔ errno ≠ 0 ∨ first.Delivered := by
    simp [Plan.Answers, framable_zero]
  cases r with
  | forget => cases kind
  | readdir r | readdirPlus r =>
      obtain ⟨guard, some⟩ := Option.isSome_iff_exists.mp whole.1
      simpa [Request.failPlan, ReaddirCommon.failPlan, some] using plain
  | _ => exact plain

theorem Request.dropPlan_answers {r : Request} (kind : r.isForget = false) (whole : r.Whole)
    (first : WritevResult) : r.dropPlan.Answers first := by
  cases r with
  | forget => cases kind
  | readdir r | readdirPlus r =>
      obtain ⟨guard, some⟩ := Option.isSome_iff_exists.mp whole.1
      obtain ⟨buffer, some'⟩ := Option.isSome_iff_exists.mp whole.2
      simp only [Request.dropPlan, ReaddirCommon.dropPlan, some, some', Plan.Answers]
      exact ⟨framable_zero, .inl (by decide)⟩
  | _ => exact trivial

theorem ReaddirCommon.replyPlan_answers {r : ReaddirCommon}
    (whole : r.request.isSome ∧ r.replyBuffer.isSome) (first : WritevResult) :
    r.replyPlan.Answers first := by
  obtain ⟨guard, some⟩ := Option.isSome_iff_exists.mp whole.1
  obtain ⟨buffer, some'⟩ := Option.isSome_iff_exists.mp whole.2
  simp [ReaddirCommon.replyPlan, some, some', Plan.Answers]

theorem xattrSizePlan_answers (size : Nat) (first : WritevResult) :
    (xattrSizePlan size).Answers first := by
  unfold xattrSizePlan
  split <;> trivial

theorem rangePlan_answers (first : WritevResult) : (Plan.disarmed (-ERANGE) [[]] 0).Answers first :=
  ⟨framable_zero, .inl (by decide)⟩

/-- The plans of the consuming calls answer exactly under `Consume.Answers`. -/
theorem Consume.plan_answers {τ : Type} [Timeout τ] {r : Request} (c : Consume τ r)
    (kind : r.isForget = false) (whole : r.Whole) (first : WritevResult) :
    c.plan.Answers first ↔ Consume.Answers r c first := by
  cases c with
  | drop => exact iff_of_true (r.dropPlan_answers kind whole first) trivial
  | fail _ errno => exact r.failPlan_answers kind whole errno first
  | ioFail _ error => exact r.failPlan_answers kind whole _ first
  | forget => cases kind
  | readdir r => exact iff_of_true (ReaddirCommon.replyPlan_answers whole first) trivial
  | readdirPlus r => exact iff_of_true (ReaddirCommon.replyPlan_answers whole first) trivial
  | create r entry fh =>
      have fits : Framable (Packed.size FuseEntryOut + Packed.size FuseOpenOut) := by decide
      simp [Consume.plan, Consume.Answers, Plan.Answers, fits]
  | read r data =>
      refine iff_of_true ?_ trivial
      simp only [Consume.plan]
      split <;> trivial
  | readVectored r data =>
      simp only [Consume.plan, Consume.Answers]
      split
      · next stopped => exact iff_of_true trivial (.inl stopped)
      · next under => simp [Plan.Answers, under]
  | write r size =>
      refine iff_of_true ?_ trivial
      simp only [Consume.plan]
      split
      · trivial
      · split <;> trivial
  | readlink r data =>
      refine iff_of_true ?_ trivial
      simp only [Consume.plan]
      split <;> trivial
  | listXAttrSize r size => exact iff_of_true (xattrSizePlan_answers size first) trivial
  | getXAttrSize r size => exact iff_of_true (xattrSizePlan_answers size first) trivial
  | failFull r => exact iff_of_true (rangePlan_answers first) trivial
  | listXAttrRaw r data =>
      refine iff_of_true ?_ trivial
      simp only [Consume.plan]
      split
      · exact rangePlan_answers first
      · trivial
  | getXAttr r data =>
      refine iff_of_true ?_ trivial
      simp only [Consume.plan]
      split
      · exact rangePlan_answers first
      · trivial
  | _ => exact iff_of_true trivial trivial

theorem Plan.filter_attempts (u : UInt64) (plan : Plan) (first second : WritevResult) :
    (plan.attempts u first second).filter (·.unique = u) = plan.attempts u first second := by
  apply List.filter_eq_self.mpr
  intro a member
  simpa using plan.attempts_unique u first second a member

/-- The end of a request that nothing was written for yet. -/
theorem consume_answered_iff {τ : Type} [Timeout τ] {w : World} {r : Request}
    (kind : r.isForget = false) (whole : r.Whole) (armed : r.unique ≠ 0)
    (untouched : w.host.log.filter (·.unique = r.unique) = []) (others : List (Request × Message))
    (c : Consume τ r) :
    Answered ((w.consume others r c).host.log.filter (·.unique = r.unique)) ↔
      Consume.Answers r c w.host.next := by
  rw [w.consume_log, List.filter_append, untouched, List.nil_append, Plan.filter_attempts,
    Plan.answered_iff armed, c.plan_answers kind whole]

/-- Groups that answer, for the uniques that are not in `old`. -/
def AnswersNew (old : List UInt64) (u : UInt64) (as : List Attempt) : Prop :=
  u ∉ old → u ≠ 0 → Answered as

theorem answersNew_settles {τ : Type} [Timeout τ] (old : List UInt64) :
    Settles τ Consume.Answers (AnswersNew old) where
  left _ o _ armed := answered_enosys armed [] o
  dropped r first second kind whole _ armed :=
    (Plan.answered_iff armed _ first second).mpr (r.dropPlan_answers kind whole first)
  consumed _ c first second kind whole allowed _ armed :=
    (Plan.answered_iff armed _ first second).mpr ((c.plan_answers kind whole first).mpr allowed)

theorem Message.owes_of_answerable {m : Message} {header : FuseInHeader} {body : Bytes}
    (good : accepted m.bytes = some (header, body)) (forget : header.opcode ≠ 2)
    (batch : header.opcode ≠ 42) (destroy : header.opcode ≠ 38) : m.owes = some header.unique := by
  have other : ∀ o, Opcode.fromU32 header.opcode = some o → o ≠ .forget ∧ o ≠ .batchForget ∧
      o ≠ .destroy := by
    intro o known
    rw [Opcode.fromU32_eq_some.mp known] at forget batch destroy
    refine ⟨?_, ?_, ?_⟩ <;> rintro rfl <;> contradiction
  simp only [Message.owes, good]
  cases known : Opcode.fromU32 header.opcode with
  | none => rfl
  | some o =>
      obtain ⟨h₁, h₂, h₃⟩ := other o known
      cases o <;> first | rfl | contradiction

/-- If requests are only given up in ways that answer, every message read after INIT
that is not a forget or DESTROY either still has its request or was answered; and a
request given up in any other way is not. -/
theorem answered_when_given_up_well {τ : Type} [Timeout τ] (ops : EnabledOps) (initDone : Bool)
    (outcome : Nat → WritevResult) (pageSize : Int64) (w₀ w : World)
    (start : Reaches τ (World.mounted ops initDone outcome pageSize) w₀)
    (ready : w₀.fuse.initDone = true) (distinct : (uniques w.trace).Nodup) :
    (ReachesBy τ Consume.Answers w₀ w →
      ∀ m ∈ (messages w.trace).drop (messages w₀.trace).length,
      ∀ header body, accepted m.bytes = some (header, body) → header.unique ≠ 0 →
        header.opcode ≠ 2 → header.opcode ≠ 42 → header.opcode ≠ 38 →
        header.unique ∈ owedBy w.requests ∨ Answered
          (w.host.log.filter (·.unique = header.unique))) ∧
    (Reaches τ w₀ w →
      ∀ (front back : List (Request × Message)) (r : Request) (m : Message) (c : Consume τ r),
        w.held = front ++ (r, m) :: back → r.isForget = false → r.unique ≠ 0 →
        (Answered ((w.consume (front ++ back) r c).host.log.filter (·.unique = r.unique)) ↔
          Consume.Answers r c w.host.next)) := by
  constructor
  · intro run m member header body good armed forget batch destroy
    obtain ⟨l₀, sound₀, tracks₀⟩ := mounted_follows start
    have sound : l₀.Sound Attempt.unique (AnswersNew (uniques w₀.trace)) := by
      refine sound₀.mono fun u old as _ new => ?_
      exact absurd (tracks₀.seen ▸ sound₀.due_seen.subset old) new
    obtain ⟨new, l, trace, ledger, tracks, due⟩ :=
      run_follows (answersNew_settles _) tracks₀ (.inl ready) run
    rw [trace, List.drop_left] at member
    have seen : uniques w.trace = uniques w₀.trace ++ new.filterMap Message.unique? := by
      rw [uniques, trace, List.filterMap_append, uniques]
    have owes := Message.owes_of_answerable good forget batch destroy
    have owed : header.unique ∈ l.due := by
      rw [(due ready).2]
      exact List.mem_append_right _ (List.mem_filterMap.mpr ⟨m, member, owes⟩)
    have fresh : header.unique ∉ uniques w₀.trace := by
      intro old
      rw [seen] at distinct
      have here := List.mem_filterMap.mpr ⟨m, member, Message.unique_of_owes owes⟩
      exact (List.nodup_append.mp distinct).2.2 _ old _ here rfl
    by_cases live : header.unique ∈ owedBy w.requests
    · exact .inl live
    · have settled := (sound.run ledger).settled (tracks.seen ▸ distinct) _ owed
        fun still => live (tracks.owed.mem_iff.mp still)
      rw [Ledger.attemptsFor, tracks.log] at settled
      exact .inr (settled fresh armed)
  · intro run front back r m c split kind armed
    obtain ⟨l, sound, tracks⟩ := mounted_follows (start.trans run)
    have here : r ∈ w.requests := by simp [World.requests, split]
    have owed : r.unique ∈ l.owed := by
      apply tracks.owed.mem_iff.mpr
      exact List.mem_map.mpr ⟨r, List.mem_filter.mpr ⟨here, by simp [kind]⟩, rfl⟩
    have untouched := sound.untouched (tracks.seen ▸ distinct) _ owed
    rw [Ledger.attemptsFor, tracks.log] at untouched
    exact consume_answered_iff kind (tracks.whole r here) armed untouched (front ++ back) c

theorem answered_when_unknown :
    ∃ w : World, ReachesBy (UInt64 × UInt32) Consume.Answers
        (World.mounted {} true (fun _ => .err EIO) 4096) w ∧
      ((1 : UInt64) ∈ owedBy w.requests ∨ Answered (w.host.log.filter (·.unique = 1))) := by
  have good : accepted (Packed.bytes unknownHeader ++ []) = some (unknownHeader, []) :=
    accepted_bytes rfl
  have run := World.mounted_reads (UInt64 × UInt32) Consume.Answers {} (fun _ => .err EIO) 4096
    (m := ⟨Packed.bytes unknownHeader ++ [], by decide⟩) good
  refine ⟨_, run, ?_⟩
  exact (answered_when_given_up_well _ _ _ _ _ _ .refl rfl (by decide)).1 run _
    (List.mem_singleton_self _)
    unknownHeader [] good (by decide) (by decide) (by decide) (by decide)

def createHeader : FuseInHeader := ⟨58, 35, 1, 1, 0, 0, 0, 0, 0⟩

/-- A `Create` whose reply the kernel refuses is never answered. -/
theorem create_reply_unanswered :
    ∃ (w : World) (r : Create) (m : Message) (entry : EntryParam (UInt64 × UInt32)),
      Reaches (UInt64 × UInt32) (World.mounted { create := true } true (fun _ => .err EIO) 4096) w ∧
      w.held = [(.create r, m)] ∧ r.request.unique = 1 ∧
      ¬ Answered ((w.consume [] (.create r) (.create r entry 7)).host.log.filter
        (·.unique = 1)) := by
  have read := World.mounted_reads (UInt64 × UInt32) (fun _ _ _ => True) { create := true }
    (fun _ => .err EIO) 4096 (m := ⟨Packed.bytes createHeader ++
      (Packed.bytes (FuseCreateIn.mk 0 0o644 0 0) ++ [97, 0]), by decide⟩) (accepted_bytes rfl)
  have run := read.tail (.poll _ rfl [⟨false, .pending, .error EAGAIN⟩])
  let r : Create := { request := ⟨1⟩, parent := 1, fileName := [97], mode := 0o644, fileInfo := {} }
  refine ⟨_, r, _, ⟨2, 0, Stat.zeroed, (0, 0), (0, 0)⟩, run, rfl, rfl, ?_⟩
  intro answered
  have sent :=
    (consume_answered_iff (r := .create r) rfl trivial (by decide) rfl [] (.create r _ 7)).mp
      answered
  exact absurd sent (by simp [Consume.Answers, WritevResult.Delivered]; decide)

end ProxmoxFuse
