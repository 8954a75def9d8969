import ProxmoxFuse.Ledger
import ProxmoxFuse.Turns

/-!
# Sessions keep a ledger

A run of a session is a run of the ledger of its uniques: a message that leaves
its guard is received and settled at once, a queued request is owed until it is
consumed or dropped, and forgets are never owed. `Follows` is one stretch of such
a simulation; it holds of every turn, every action of the consumer and the drop
of the `Fuse`, hence of every run.
-/
namespace ProxmoxFuse

/-! ### What a message obliges to -/

def Message.unique? (m : Message) : Option UInt64 := (accepted m.bytes).map (·.1.unique)

theorem Message.unique_of_accepted {m : Message} {header : FuseInHeader} {body : Bytes}
    (good : accepted m.bytes = some (header, body)) : m.unique? = some header.unique := by
  rw [Message.unique?, good]
  rfl

/-- The unique the session takes on to answer. A FORGET too short for its struct
is among them: its guard is still armed when it is dropped. -/
def Message.owes (m : Message) : Option UInt64 :=
  match accepted m.bytes with
  | none => none
  | some (header, body) =>
      match Opcode.fromU32 header.opcode with
      | some .batchForget => none
      | some .destroy => none
      | some .forget => if body.length < 8 ∧ header.unique ≠ 0 then some header.unique else none
      | _ => some header.unique

/-- The uniques read so far. -/
def uniques (trace : List Obs) : List UInt64 := (messages trace).filterMap Message.unique?

/-- The uniques that requests still have to answer. -/
def owedBy (rs : List Request) : List UInt64 := (rs.filter (!·.isForget)).map Request.unique

theorem owedBy_append (rs qs : List Request) : owedBy (rs ++ qs) = owedBy rs ++ owedBy qs := by
  simp only [owedBy, List.filter_append, List.map_append]

theorem owedBy_forgets {rs : List Request} (forgets : ∀ r ∈ rs, r.isForget = true) :
    owedBy rs = [] := by
  have none : rs.filter (!·.isForget) = [] := by
    apply List.filter_eq_nil_iff.mpr
    intro r member
    simp [forgets r member]
  rw [owedBy, none, List.map_nil]

theorem owedBy_perm {rs qs : List Request} (same : rs.Perm qs) : (owedBy rs).Perm (owedBy qs) :=
  (same.filter _).map _

theorem owedBy_cons_of_not_forget {r : Request} (rs : List Request) (kind : r.isForget = false) :
    owedBy (r :: rs) = r.unique :: owedBy rs := by
  simp [owedBy, kind]

theorem owedBy_cons_of_forget {r : Request} (rs : List Request) (kind : r.isForget = true) :
    owedBy (r :: rs) = owedBy rs := by
  simp [owedBy, kind]

/-! ### Calls keep what a request owes -/

section calls
variable {τ : Type} [Timeout τ] {r : Request}

theorem ReaddirCommon.withBuffer_request (r : ReaddirCommon)
    (add : ReplyBuf → ReplyBufState × ReplyBuf) :
    (r.withBuffer add).2.request = r.request := by
  unfold ReaddirCommon.withBuffer
  split <;> rfl

theorem ReaddirCommon.withBuffer_isSome (r : ReaddirCommon)
    (add : ReplyBuf → ReplyBufState × ReplyBuf) :
    (r.withBuffer add).2.replyBuffer.isSome = r.replyBuffer.isSome := by
  unfold ReaddirCommon.withBuffer
  split
  · rfl
  · next same => simp [same]

theorem Readdir.addEntry_keeps (r : Readdir) (name : OsStr) (stat : Stat) (next : UInt64) :
    (Readdir.addEntry r name stat next).2.request = r.request ∧
      (Readdir.addEntry r name stat next).2.replyBuffer.isSome = r.replyBuffer.isSome := by
  unfold Readdir.addEntry
  split
  · exact ⟨rfl, rfl⟩
  · exact ⟨ReaddirCommon.withBuffer_request r _, ReaddirCommon.withBuffer_isSome r _⟩

theorem ReaddirPlus.addEntry_keeps (r : ReaddirPlus) (name : OsStr) (stat : Stat)
    (next generation : UInt64) (attrTimeout entryTimeout : τ) :
    (ReaddirPlus.addEntry r name stat next generation attrTimeout entryTimeout).2.request =
      r.request ∧
      (ReaddirPlus.addEntry r name stat next generation attrTimeout
        entryTimeout).2.replyBuffer.isSome =
        r.replyBuffer.isSome := by
  unfold ReaddirPlus.addEntry
  split
  · exact ⟨rfl, rfl⟩
  · exact ⟨ReaddirCommon.withBuffer_request r _, ReaddirCommon.withBuffer_isSome r _⟩

theorem ListXAttr.addBytesWithoutZero_request (r : ListXAttr) (name : Bytes) :
    (r.addBytesWithoutZero name).2.request = r.request := by
  unfold ListXAttr.addBytesWithoutZero
  split <;> rfl

theorem ListXAttr.addBytesWithZero_request (r : ListXAttr) (name : Bytes) :
    (r.addBytesWithZero name).2.request = r.request := by
  unfold ListXAttr.addBytesWithZero
  split <;> rfl

theorem ListXAttr.setRawReply_request (r : ListXAttr) (data : Bytes) :
    (r.setRawReply data).2.request = r.request := by
  unfold ListXAttr.setRawReply
  split <;> rfl

theorem Call.after_unique (c : Call τ r) : c.after.unique = r.unique := by
  cases c with
  | readdirAdd r name stat next =>
      simp only [Call.after, Request.unique, (Readdir.addEntry_keeps r name stat next).1]
  | readdirPlusAdd r name stat next generation a e =>
      simp only [Call.after, Request.unique,
        (ReaddirPlus.addEntry_keeps r name stat next generation a e).1]
  | createInfo r info => rfl
  | openInfo r info => rfl
  | add r name => exact congrArg RequestGuard.unique (r.addBytesWithoutZero_request name)
  | addBytesWithoutZero r name =>
      exact congrArg RequestGuard.unique (r.addBytesWithoutZero_request name)
  | addBytesWithZero r name => exact congrArg RequestGuard.unique (r.addBytesWithZero_request name)
  | addCString r name => exact congrArg RequestGuard.unique (r.addBytesWithZero_request _)
  | setRawReply r data => exact congrArg RequestGuard.unique (r.setRawReply_request data)

theorem Call.after_isForget (c : Call τ r) : c.after.isForget = r.isForget := by
  cases c <;> rfl

theorem Call.after_whole (c : Call τ r) (whole : r.Whole) : c.after.Whole := by
  cases c with
  | readdirAdd r name stat next =>
      obtain ⟨guard, buffer⟩ := Readdir.addEntry_keeps r name stat next
      exact ⟨guard ▸ whole.1, buffer ▸ whole.2⟩
  | readdirPlusAdd r name stat next generation a e =>
      obtain ⟨guard, buffer⟩ := ReaddirPlus.addEntry_keeps r name stat next generation a e
      exact ⟨guard ▸ whole.1, buffer ▸ whole.2⟩
  | _ => trivial

/-- Whatever is done with a forget, nothing is written. -/
theorem Consume.plan_forget (c : Consume τ r) (kind : r.isForget = true) : c.plan = .silent := by
  cases c <;> first
    | rfl
    | (cases r <;> first | rfl | cases kind)
    | cases kind

end calls

/-! ### The simulation -/

/-- `l` is a ledger of `w`. -/
structure Tracks (w : World) (l : Ledger UInt64 Attempt) : Prop where
  seen : l.seen = uniques w.trace
  owed : l.owed.Perm (owedBy w.requests)
  log : l.log = w.host.log
  whole : ∀ r ∈ w.requests, r.Whole

/-- What a ledger needs of the groups of attempts for its steps to be those of a
session whose consumer keeps to `may`. -/
structure Settles (τ : Type) [Timeout τ] (may : ∀ r, Consume τ r → WritevResult → Prop)
    (ok : UInt64 → List Attempt → Prop) : Prop where
  left : ∀ u o, ok u (enosys u o)
  dropped : ∀ (r : Request) first second, r.isForget = false → r.Whole →
    ok r.unique (r.dropPlan.attempts r.unique first second)
  consumed : ∀ (r : Request) (c : Consume τ r) first second, r.isForget = false → r.Whole →
    may r c first → ok r.unique (c.plan.attempts r.unique first second)

/-- From `w` with ledger `l`, `w'` was reached by reading `new` messages. -/
def Follows (ok : UInt64 → List Attempt → Prop) (w : World) (l : Ledger UInt64 Attempt)
    (w' : World) : Prop :=
  ∃ new l', messages w'.trace = messages w.trace ++ new ∧ Ledger.Reaches Attempt.unique ok l l' ∧
    Tracks w' l' ∧
    (w.fuse.initDone = true → w'.fuse.initDone = true ∧ l'.due =
      l.due ++ new.filterMap Message.owes)

section simulation
variable {ok : UInt64 → List Attempt → Prop} {w w' : World} {l : Ledger UInt64 Attempt}

theorem Follows.refl (t : Tracks w l) : Follows ok w l w :=
  ⟨[], l, by simp, .refl, t, fun ready => ⟨ready, by simp⟩⟩

theorem Follows.quiet (t : Tracks w l) (quiet : w.Quiet w') : Follows ok w l w' := by
  refine ⟨[], l, by simp [quiet.trace], .refl, ⟨?_, ?_, ?_, ?_⟩,
    fun ready => ⟨quiet.init.trans ready, by simp⟩⟩
  · rw [t.seen, uniques, uniques, quiet.trace]
  · exact t.owed.trans (owedBy_perm quiet.requests).symm
  · rw [t.log, quiet.host]
  · exact fun r member => t.whole r (quiet.requests.mem_iff.mp member)

theorem Follows.trans {w₂ : World} (first : Follows ok w l w')
    (second : ∀ l', Tracks w' l' → Follows ok w' l' w₂) : Follows ok w l w₂ := by
  obtain ⟨new, l', trace, run, tracks, due⟩ := first
  obtain ⟨new', l₂, trace', run', tracks', due'⟩ := second l' tracks
  refine ⟨new ++ new', l₂, ?_, run.trans run', tracks', ?_⟩
  · rw [trace', trace, List.append_assoc]
  · intro ready
    obtain ⟨ready', grown⟩ := due ready
    obtain ⟨ready₂, grown'⟩ := due' ready'
    refine ⟨ready₂, ?_⟩
    rw [grown', grown, List.filterMap_append, List.append_assoc]

/-- A message that is only noted. -/
theorem Follows.ignored (t : Tracks w l) {m : Message} {u : UInt64} (unique : m.unique? = some u)
    (trace : messages w'.trace = messages w.trace ++ [m]) (log : w'.host.log = w.host.log)
    (owed : owedBy w'.requests = owedBy w.requests) (whole : ∀ r ∈ w'.requests, r.Whole)
    (due : w.fuse.initDone = true → w'.fuse.initDone = true ∧ m.owes = none) :
    Follows ok w l w' := by
  refine ⟨[m], { l with seen := l.seen ++ [u] }, trace, .single (.ignore l u), ⟨?_, ?_, ?_, whole⟩,
    ?_⟩
  · simp [uniques, trace, unique, t.seen]
  · rw [owed]
    exact t.owed
  · exact t.log.trans log.symm
  · intro ready
    exact ⟨(due ready).1, by simp [(due ready).2]⟩

/-- A message answered while it is processed. -/
theorem Follows.answered (t : Tracks w l) {m : Message} {u : UInt64} {as : List Attempt}
    (unique : m.unique? = some u) (trace : messages w'.trace = messages w.trace ++ [m])
    (log : w'.host.log = w.host.log ++ as) (requests : w'.requests = w.requests)
    (own : ∀ a ∈ as, a.unique = u) (good : ok u as)
    (due : w.fuse.initDone = true → w'.fuse.initDone = true ∧ m.owes = some u) :
    Follows ok w l w' := by
  refine ⟨[m], { l with seen := l.seen ++ [u], due := l.due ++ [u], log := l.log ++ as }, trace,
    .tail (.single (.receive l u)) (.settle _ u l.owed as (List.Perm.refl _) own good),
      ⟨?_, ?_, ?_, ?_⟩, ?_⟩
  · simp [uniques, trace, unique, t.seen]
  · rw [requests]
    exact t.owed
  · rw [log, ← t.log]
  · rw [requests]
    exact t.whole
  · intro ready
    exact ⟨(due ready).1, by simp [(due ready).2]⟩

/-- A message that became a request. -/
theorem Follows.taken (t : Tracks w l) {m : Message} {u : UInt64} (unique : m.unique? = some u)
    (trace : messages w'.trace = messages w.trace ++ [m]) (log : w'.host.log = w.host.log)
    (owed : (owedBy w'.requests).Perm (u :: owedBy w.requests)) (whole : ∀ r ∈ w'.requests, r.Whole)
    (due : w.fuse.initDone = true → w'.fuse.initDone = true ∧ m.owes = some u) :
    Follows ok w l w' := by
  refine ⟨[m], { l with seen := l.seen ++ [u], due := l.due ++ [u], owed := u :: l.owed }, trace,
    .single (.receive l u), ⟨?_, ?_, ?_, whole⟩, ?_⟩
  · simp [uniques, trace, unique, t.seen]
  · exact (t.owed.cons u).trans owed.symm
  · exact t.log.trans log.symm
  · intro ready
    exact ⟨(due ready).1, by simp [(due ready).2]⟩

/-- A request that went away. -/
theorem Follows.settled (t : Tracks w l) {u : UInt64} {rest : List UInt64} {as : List Attempt}
    (trace : w'.trace = w.trace) (log : w'.host.log = w.host.log ++ as)
    (owed : (owedBy w.requests).Perm (u :: rest)) (owed' : owedBy w'.requests = rest)
    (whole : ∀ r ∈ w'.requests, r.Whole) (init : w'.fuse.initDone = w.fuse.initDone)
    (own : ∀ a ∈ as, a.unique = u) (good : ok u as) : Follows ok w l w' := by
  refine ⟨[], { l with owed := rest, log := l.log ++ as }, by simp [trace],
    .single (.settle l u rest as (t.owed.trans owed) own good), ⟨?_, ?_, ?_, whole⟩, ?_⟩
  · rw [trace]
    exact t.seen
  · rw [owed']
  · rw [log, ← t.log]
  · intro ready
    exact ⟨init.trans ready, by simp⟩

theorem initAttempt_unique (fuse : Fuse) (header : FuseInHeader) (initIn : FuseInitIn)
    (host : Host) :
    (initAttempt fuse header initIn host).unique = header.unique := replyAttempt_unique ..

theorem enosys_unique (u : UInt64) (o : WritevResult) : ∀ a ∈ enosys u o, a.unique = u :=
  Plan.attempts_unique u o o .refused

/-- INIT is answered by the reply it gets, whatever becomes of that. -/
theorem Follows.initReplied (t : Tracks w l) (fine : ∀ a : Attempt, ok a.unique [a]) {m : Message}
    {header : FuseInHeader} {body : Bytes} {initIn : FuseInitIn}
    (good : accepted m.bytes = some (header, body)) (phase : w.fuse.initDone = false)
    (trace : messages w'.trace = messages w.trace ++ [m])
    (log : w'.host.log = w.host.log ++ [initAttempt w.fuse header initIn w.host])
    (requests : w'.requests = w.requests) : Follows ok w l w' := by
  have replied := fine (initAttempt w.fuse header initIn w.host)
  rw [initAttempt_unique] at replied
  refine Follows.answered t (Message.unique_of_accepted good) trace log requests ?_ replied ?_
  · simp [initAttempt_unique]
  · intro ready
    rw [phase] at ready
    cases ready

/-- The part of a turn between the read and the return. -/
theorem handled_follows (t : Tracks w l) (left : ∀ u o, ok u (enosys u o))
    (init : w.fuse.initDone = true ∨ ∀ a : Attempt, ok a.unique [a])
    {m : Message} (view : w.Handles m w') : Follows ok w l w' := by
  obtain ⟨buf, heap, result, fuse, host, heap', trace, held, fuse_eq, host_eq, view⟩ := view
  cases view with
  | rejected _ bad =>
      refine ⟨[m], l, trace, .refl, ⟨?_, ?_, ?_, ?_⟩, ?_⟩
      · simp [uniques, trace, Message.unique?, bad, t.seen]
      · simpa only [World.requests, fuse_eq, held] using t.owed
      · rw [t.log, host_eq]
      · simpa only [World.requests, fuse_eq, held] using t.whole
      · intro ready
        exact ⟨by rw [fuse_eq, ready], by simp [Message.owes, bad]⟩
  | initRefused _ header body good phase =>
      apply Follows.ignored t (Message.unique_of_accepted good) trace (by rw [host_eq])
      · simp only [World.requests, fuse_eq, held]
      · simpa only [World.requests, fuse_eq, held] using t.whole
      · intro ready
        rw [phase] at ready
        cases ready
  | initUnsent errno header body initIn good phase failed =>
      exact Follows.initReplied t (init.resolve_left (by simp [phase])) good phase trace
        (by rw [host_eq, Host.extend_log]) (by simp only [World.requests, fuse_eq, held])
  | initDone header body initIn good phase opcode read sent =>
      exact Follows.initReplied t (init.resolve_left (by simp [phase])) good phase trace
        (by rw [host_eq, Host.extend_log]) (by simp only [World.requests, fuse_eq, held])
  | left _ header body good phase answered =>
      have unique := Message.unique_of_accepted good
      by_cases owes : m.owes = some header.unique
      · apply Follows.answered t unique trace (by rw [host_eq, Host.extend_log])
          (by simp only [World.requests, fuse_eq, held]) (enosys_unique _ _) (left _ _)
        exact fun ready => ⟨by rw [fuse_eq, ready], owes⟩
      · -- a FORGET too short for its struct, whose guard carries 0
        have silent : header.unique = 0 ∧ m.owes = none := by
          simp only [Message.owes, good] at owes ⊢
          cases opcode : Opcode.fromU32 header.opcode with
          | none => simp [opcode] at owes
          | some o => grind [Opcode.unanswered]
        apply Follows.ignored t unique trace
        · simp [host_eq, silent.1, enosys]
        · simp only [World.requests, fuse_eq, held]
        · simpa only [World.requests, fuse_eq, held] using t.whole
        · exact fun ready => ⟨by rw [fuse_eq, ready], silent.2⟩
  | queued r header body o good phase opcode answered fresh =>
      have requests : w'.requests.Perm (r :: w.requests) := by
        simp only [World.requests, fuse_eq, held]
        rw [List.append_assoc]
        exact List.perm_middle
      apply Follows.taken t (Message.unique_of_accepted good) trace (by rw [host_eq])
      · have owed := owedBy_perm requests
        rwa [owedBy_cons_of_not_forget _ fresh.isForget_eq, fresh.unique_eq] at owed
      · intro q member
        rcases List.mem_cons.mp (requests.mem_iff.mp member) with rfl | old
        · exact fresh.whole
        · exact t.whole q old
      · refine fun ready => ⟨by rw [fuse_eq]; exact ready, ?_⟩
        simp only [Message.owes, good, opcode]
        cases o <;> first | rfl | cases answered
  | forgets _ rs header body o good phase opcode forgetting forgets all =>
      apply Follows.ignored t (Message.unique_of_accepted good) trace (by rw [host_eq])
      · simp only [World.requests, fuse_eq, held, owedBy_append, owedBy_forgets forgets,
          List.append_nil]
      · intro q member
        simp only [World.requests, fuse_eq, held, List.mem_append] at member
        rcases member with (old | new) | holding
        · exact t.whole q (List.mem_append_left _ old)
        · have kind := forgets q new
          cases q <;> trivial
        · exact t.whole q (List.mem_append_right _ holding)
      · refine fun ready => ⟨by rw [fuse_eq]; exact ready, ?_⟩
        simp only [Message.owes, good, opcode]
        rcases forgetting with ⟨rfl, long⟩ | rfl
        · exact if_neg fun short => Nat.not_lt.mpr long short.1
        · rfl
  | destroyed header body good phase opcode =>
      apply Follows.ignored t (Message.unique_of_accepted good) trace (by rw [host_eq])
      · simp only [World.requests, fuse_eq, held]
      · simpa only [World.requests, fuse_eq, held] using t.whole
      · exact fun ready => ⟨by rw [fuse_eq]; exact ready, by simp only [Message.owes, good, opcode]⟩

theorem turn_follows (t : Tracks w l) (left : ∀ u o, ok u (enosys u o))
    (init : w.fuse.initDone = true ∨ ∀ a : Attempt, ok a.unique [a]) (turn : Turn) :
    Follows ok w l (w.pollTurn turn).2 := by
  have effect := w.pollTurn_effect turn
  generalize (w.pollTurn turn).2 = w' at effect
  cases effect with
  | quiet same => exact .quiet t same
  | empty m bad w₁ same trace =>
      refine (Follows.quiet t same).trans fun l' t' => ?_
      refine ⟨[m], l', by simp [trace], .refl, ⟨?_, t'.owed, t'.log, t'.whole⟩,
        fun ready => ⟨ready, ?_⟩⟩
      · simp [uniques, trace, Message.unique?, bad, t'.seen]
      · simp [Message.owes, bad]
  | message m w₁ same handled =>
      have init' := init.imp_left same.init.trans
      exact (Follows.quiet t same).trans fun l' t' => handled_follows t' left init' handled

theorem poll_follows (t : Tracks w l) (left : ∀ u o, ok u (enosys u o))
    (init : w.fuse.initDone = true ∨ ∀ a : Attempt, ok a.unique [a]) (turns : List Turn) :
    Follows ok w l (w.pollNext turns).2 := by
  apply World.pollNext_induct (P := Follows ok w l) ?_ w turns (.refl t)
  intro w' turn before
  have init' : w'.fuse.initDone = true ∨ ∀ a : Attempt, ok a.unique [a] := by
    obtain ⟨_, _, _, _, _, ready⟩ := before
    exact init.imp (fun done => (ready done).1) id
  exact before.trans fun l' t' => turn_follows t' left init' turn

/-- Dropping queued requests in order settles each of them. -/
theorem dropped_follows {τ : Type} [Timeout τ] {may : ∀ r, Consume τ r → WritevResult → Prop}
    (settles : Settles τ may ok) (rs others : List Request) (whole : ∀ r ∈ rs, r.Whole)
    (host : Host) (l : Ledger UInt64 Attempt) (owed : l.owed.Perm (owedBy (rs ++ others)))
    (log : l.log = host.log) :
    ∃ l', Ledger.Reaches Attempt.unique ok l l' ∧ l'.seen = l.seen ∧ l'.due = l.due ∧
      l'.owed.Perm (owedBy others) ∧ l'.log = (rs.foldl (fun host r => r.drop host) host).log := by
  induction rs generalizing host l with
  | nil => exact ⟨l, .refl, rfl, rfl, owed, log⟩
  | cons r rs ih =>
      rw [List.foldl_cons, r.drop_run host]
      have whole' := fun q member => whole q (List.mem_cons_of_mem r member)
      cases kind : r.isForget with
      | true =>
          have silent : r.dropPlan = .silent := (Consume.drop r : Consume τ r).plan_forget kind
          rw [List.cons_append, owedBy_cons_of_forget _ kind] at owed
          rw [silent, silent_run]
          exact ih whole' host l owed log
      | false =>
          rw [List.cons_append, owedBy_cons_of_not_forget _ kind] at owed
          have good := settles.dropped r host.next host.second kind (whole r List.mem_cons_self)
          have step := Ledger.Step.settle l r.unique (owedBy (rs ++ others)) _ owed
            (Plan.attempts_unique r.unique host.next host.second r.dropPlan) good
          obtain ⟨l', run, seen, due, owed', log'⟩ := ih whole' (r.dropPlan.run r.unique host)
            { l with owed := owedBy (rs ++ others),
                     log := l.log ++ r.dropPlan.attempts r.unique host.next host.second }
            (List.Perm.refl _) (by rw [log]; rfl)
          exact ⟨l', .head step run, seen, due, owed', log'⟩

theorem World.consume_log {τ : Type} [Timeout τ] (w : World) (others : List (Request × Message))
    (r : Request) (c : Consume τ r) : (w.consume others r c).host.log =
      w.host.log ++ c.plan.attempts r.unique w.host.next w.host.second :=
  congrArg Host.log (c.run_eq w.host)

section consumer
variable {τ : Type} [Timeout τ] {may : ∀ r, Consume τ r → WritevResult → Prop}
  {front back : List (Request × Message)} {r : Request} {m : Message}

/-- A call on a request changes neither its unique nor whether it is a forget. -/
theorem call_follows (t : Tracks w l) (split : w.held = front ++ (r, m) :: back) (c : Call τ r) :
    Follows ok w l { w with held := front ++ (c.after, m) :: back } := by
  have member : r ∈ w.requests := by simp [World.requests, split]
  refine ⟨[], l, by simp, .refl, ⟨t.seen, ?_, t.log, ?_⟩, fun ready => ⟨ready, by simp⟩⟩
  · have same : owedBy (w.fuse.pending ++ (front ++ (c.after, m) :: back).map Prod.fst) =
        owedBy w.requests := by
      simp only [World.requests, split, List.map_append, List.map_cons, owedBy_append]
      cases kind : r.isForget with
      | true =>
          rw [owedBy_cons_of_forget _ kind, owedBy_cons_of_forget _ (c.after_isForget.trans kind)]
      | false =>
          rw [owedBy_cons_of_not_forget _ kind,
            owedBy_cons_of_not_forget _ (c.after_isForget.trans kind), c.after_unique]
    exact same ▸ t.owed
  · intro q here
    simp only [World.requests, List.map_append, List.map_cons, List.mem_append,
      List.mem_cons] at here
    rcases here with queued | before | rfl | after
    · exact t.whole q (by simp [World.requests, queued])
    · exact t.whole q (by simp [World.requests, split]; grind)
    · exact c.after_whole (t.whole r member)
    · exact t.whole q (by simp [World.requests, split]; grind)

/-- Giving up a request settles its unique; giving up a forget settles nothing. -/
theorem consume_follows (settles : Settles τ may ok) (t : Tracks w l)
    (split : w.held = front ++ (r, m) :: back) (c : Consume τ r) (allowed : may r c w.host.next) :
    Follows ok w l (w.consume (front ++ back) r c) := by
  have requests : w.requests.Perm (r :: (w.fuse.pending ++ (front ++ back).map Prod.fst)) := by
    simp only [World.requests, split, List.map_append, List.map_cons, ← List.append_assoc]
    exact List.perm_middle
  have whole : ∀ q ∈ w.fuse.pending ++ (front ++ back).map Prod.fst, q.Whole := fun q member =>
    t.whole q (requests.mem_iff.mpr (List.mem_cons_of_mem _ member))
  have owed := owedBy_perm requests
  cases kind : r.isForget with
  | true =>
      have silent : c.run w.host = w.host := by
        rw [c.run_eq, c.plan_forget kind, silent_run]
      rw [owedBy_cons_of_forget _ kind] at owed
      refine ⟨[], l, by simp [World.consume], .refl, ⟨t.seen, t.owed.trans owed, ?_, whole⟩,
        fun ready => ⟨ready, by simp⟩⟩
      rw [t.log]
      exact (congrArg Host.log silent).symm
  | false =>
      rw [owedBy_cons_of_not_forget _ kind] at owed
      have good := settles.consumed r c w.host.next w.host.second kind
        (t.whole r (requests.mem_iff.mpr List.mem_cons_self)) allowed
      exact Follows.settled t rfl (w.consume_log _ r c) owed rfl whole
        rfl (Plan.attempts_unique _ _ _ _) good

theorem dropFuse_follows (settles : Settles τ may ok) (t : Tracks w l) :
    Follows ok w l w.dropFuse := by
  have whole := fun r member => t.whole r (List.mem_append_left _ member)
  obtain ⟨l', run, seen, due, owed, log⟩ := dropped_follows settles w.fuse.pending
    (w.held.map Prod.fst) whole w.host l t.owed t.log
  refine ⟨[], l', by simp [World.dropFuse], run, ⟨seen.trans t.seen, owed, log, ?_⟩,
    fun ready => ⟨ready, by simp [due]⟩⟩
  exact fun q member => t.whole q (List.mem_append_right _ member)

theorem step_follows (settles : Settles τ may ok) (t : Tracks w l)
    (init : w.fuse.initDone = true ∨ ∀ a : Attempt, ok a.unique [a]) (step : Step τ may w w') :
    Follows ok w l w' := by
  cases step with
  | poll live turns => exact poll_follows t settles.left init turns
  | call front back r m split c => exact call_follows t split c
  | consume front back r m split c allowed => exact consume_follows settles t split c allowed
  | dropFuse live => exact dropFuse_follows settles t

/-- Every run of a session is a run of its ledger. -/
theorem run_follows (settles : Settles τ may ok) (t : Tracks w l)
    (init : w.fuse.initDone = true ∨ ∀ a : Attempt, ok a.unique [a]) (run : ReachesBy τ may w w') :
    Follows ok w l w' := by
  refine run_induct (P := Follows ok w l) (fun w₁ w₂ _ follows last => ?_) (.refl t) run
  have init' := init.imp_left fun done => by
    obtain ⟨_, _, _, _, _, ready⟩ := follows
    exact (ready done).1
  exact follows.trans fun l' t' => step_follows settles t' init' last

end consumer
end simulation

theorem mounted_tracks (ops : EnabledOps) (initDone : Bool) (outcome : Nat → WritevResult)
    (pageSize : Int64) :
    Tracks (World.mounted ops initDone outcome pageSize) ⟨[], [], [], []⟩ :=
  ⟨rfl, List.Perm.refl _, rfl, by simp [World.requests, World.mounted]⟩

end ProxmoxFuse
