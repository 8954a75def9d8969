import ProxmoxFuse.Requests

/-!
# What a consumed request writes

Whatever a consumer does to give a request up, its guard goes through one of
five lives: it never answers, it is disarmed before one message is sent, it
stays armed until a reply was accepted (with or without an exception for
cancellation), or it is dropped armed. A `Plan` is that life, and
`Consume.run_eq` says that every consuming call of the API follows its plan:
the messages it writes are the plan's, and nothing else of the host changes.
-/
namespace ProxmoxFuse

/-! ### Messages -/

/-- The attempt a framing function makes, header first. -/
def replyAttempt (unique : UInt64) (error : Int32) (slices : List Bytes) (len : Nat)
    (result : WritevResult) : Attempt where
  iov :=
    Packed.bytes (FuseOutHeader.mk (UInt32.ofNat (Packed.size FuseOutHeader + len)) error unique) ::
      slices
  result := result

@[simp] theorem replyAttempt_header (u : UInt64) (e : Int32) (slices : List Bytes) (len : Nat)
    (o : WritevResult) : (replyAttempt u e slices len o).header =
      ⟨UInt32.ofNat (Packed.size FuseOutHeader + len), e, u⟩ := by
  simp [replyAttempt, Attempt.header, Attempt.message]

@[simp] theorem replyAttempt_unique (u : UInt64) (e : Int32) (slices : List Bytes) (len : Nat)
    (o : WritevResult) : (replyAttempt u e slices len o).unique = u := by
  simp [Attempt.unique]

@[simp] theorem replyAttempt_error (u : UInt64) (e : Int32) (slices : List Bytes) (len : Nat)
    (o : WritevResult) : (replyAttempt u e slices len o).error = e := by
  simp [Attempt.error]

@[simp] theorem replyAttempt_payload (u : UInt64) (e : Int32) (slices : List Bytes) (len : Nat)
    (o : WritevResult) : (replyAttempt u e slices len o).payload = slices.flatten := by
  simp [replyAttempt, Attempt.payload, Attempt.message]

@[simp] theorem replyAttempt_result (u : UInt64) (e : Int32) (slices : List Bytes) (len : Nat)
    (o : WritevResult) : (replyAttempt u e slices len o).result = o := rfl

/-- A reply of `len` payload bytes has a length that fits its header. -/
def Framable (len : Nat) : Prop := Packed.size FuseOutHeader + len < 2 ^ 32

instance (len : Nat) : Decidable (Framable len) := inferInstanceAs (Decidable (_ < _))

theorem replyLen_eq (len : Nat) : replyLen len =
    if Framable len then .ok (UInt32.ofNat (Packed.size FuseOutHeader + len))
    else .error (.other "FUSE reply exceeds u32::MAX") := rfl

/-- Nothing is written when the length does not fit. -/
def framed (unique : UInt64) (error : Int32) (slices : List Bytes) (len : Nat) (o : WritevResult) :
    List Attempt :=
  if Framable len then [replyAttempt unique error slices len o] else []

/-- The automatic answer of a dropped guard. -/
def enosys (unique : UInt64) (o : WritevResult) : List Attempt :=
  if unique = 0 then [] else [replyAttempt unique (-ENOSYS) [[]] 0 o]

/-! ### The host -/

def Host.extend (host : Host) (attempts : List Attempt) : Host :=
  { host with log := host.log ++ attempts }

@[simp] theorem Host.extend_nil (host : Host) : host.extend [] = host := by
  simp [Host.extend]

theorem Host.extend_extend (host : Host) (as bs : List Attempt) :
    (host.extend as).extend bs = host.extend (as ++ bs) := by
  simp [Host.extend]

@[simp] theorem Host.extend_log (host : Host) (as : List Attempt) :
    (host.extend as).log = host.log ++ as := rfl

/-- The outcome of the `writev` after the next one. -/
def Host.second (host : Host) : WritevResult := host.outcome (host.log.length + 1)

theorem Host.extend_one_next (host : Host) (a : Attempt) :
    (host.extend [a]).next = host.second := by
  simp [Host.next, Host.second, Host.extend]

/-- A reply whose length fits is one write, and the write decides. -/
theorem sendReply_framable {data : Bytes} (fits : Framable data.length) (u : UInt64) (e : Int32)
    (host : Host) :
    sendReply u e data host =
      (host.next.toResult, host.extend [replyAttempt u e [data] data.length host.next]) := by
  simp only [sendReply, replyLen_eq, if_pos fits]
  rfl

theorem sendReply_unframable {data : Bytes} (long : ¬ Framable data.length) (u : UInt64) (e : Int32)
    (host : Host) :
    sendReply u e data host = (.error (.other "FUSE reply exceeds u32::MAX"), host) := by
  simp only [sendReply, replyLen_eq, if_neg long]

theorem sendReplyVectored_framable {len : Nat} (fits : Framable len) (u : UInt64)
    (slices : List Bytes) (host : Host) :
    sendReplyVectored u slices len host =
      (host.next.toResult, host.extend [replyAttempt u 0 slices len host.next]) := by
  simp only [sendReplyVectored, replyLen_eq, if_pos fits]
  rfl

theorem sendReplyVectored_unframable {len : Nat} (long : ¬ Framable len) (u : UInt64)
    (slices : List Bytes) (host : Host) :
    sendReplyVectored u slices len host =
      (.error (.other "FUSE reply exceeds u32::MAX"), host) := by
  simp only [sendReplyVectored, replyLen_eq, if_neg long]

theorem sendReply_host (u : UInt64) (e : Int32) (data : Bytes) (host : Host) :
    (sendReply u e data host).2 = host.extend (framed u e [data] data.length host.next) := by
  by_cases fits : Framable data.length
  · rw [sendReply_framable fits, framed, if_pos fits]
  · rw [sendReply_unframable fits, framed, if_neg fits, Host.extend_nil]

theorem sendReplyVectored_host (u : UInt64) (slices : List Bytes) (len : Nat) (host : Host) :
    (sendReplyVectored u slices len host).2 = host.extend (framed u 0 slices len host.next) := by
  by_cases fits : Framable len
  · rw [sendReplyVectored_framable fits, framed, if_pos fits]
  · rw [sendReplyVectored_unframable fits, framed, if_neg fits, Host.extend_nil]

theorem RequestGuard.drop_eq (g : RequestGuard) (host : Host) :
    g.drop host = host.extend (enosys g.unique host.next) := by
  by_cases zero : g.unique = 0
  · simp [RequestGuard.drop, enosys, zero]
  · have armed : (g.unique != 0) = true := by simpa using zero
    simp only [RequestGuard.drop, armed, if_true, sendErrorReply, sendReply_host, enosys,
      if_neg zero]
    rfl

/-! ### Plans -/

inductive Plan where
  | silent
  | disarmed (error : Int32) (slices : List Bytes) (len : Nat)
  | armed (data : Bytes)
  | cancellable (data : Bytes)
  | refused

/-- The attempts of a plan under the outcomes of the next two `writev` calls. -/
def Plan.attempts (u : UInt64) (first second : WritevResult) : Plan → List Attempt
  | .silent => []
  | .disarmed e slices len => framed u e slices len first
  | .armed data =>
      if Framable data.length then
        if first = .ok then [replyAttempt u 0 [data] data.length first]
        else replyAttempt u 0 [data] data.length first :: enosys u second
      else enosys u first
  | .cancellable data =>
      if Framable data.length then
        if first = .ok ∨ first = .err ENOENT then [replyAttempt u 0 [data] data.length first]
        else replyAttempt u 0 [data] data.length first :: enosys u second
      else enosys u first
  | .refused => enosys u first

def Plan.run (u : UInt64) (plan : Plan) (host : Host) : Host :=
  host.extend (plan.attempts u host.next host.second)

theorem replyErr_run (g : RequestGuard) (errno : Int32) (host : Host) :
    (replyErr g errno host).2 = (Plan.disarmed (-errno) [[]] 0).run g.unique host :=
  sendReply_host _ _ _ _

theorem replyOk_run (g : RequestGuard) (data : Bytes) (host : Host) :
    (dropGuard (replyOk g data host)).2 = (Plan.armed data).run g.unique host := by
  simp only [dropGuard, replyOk, Plan.run, Plan.attempts]
  by_cases fits : Framable data.length
  · rw [sendReply_framable fits, if_pos fits]
    cases first : host.next with
    | ok => simp [WritevResult.toResult, RequestGuard.drop]
    | err errno =>
        simp [WritevResult.toResult, RequestGuard.drop_eq, Host.extend_extend, Host.extend_one_next]
  · rw [sendReply_unframable fits, if_neg fits]
    exact g.drop_eq host

theorem replyOk_result (g : RequestGuard) (data : Bytes) (host : Host) :
    (dropGuard (replyOk g data host)).1 = (sendReply g.unique 0 data host).1 := by
  rcases whole : sendReply g.unique 0 data host with ⟨result, after⟩
  cases result <;> simp only [dropGuard, replyOk, whole]

theorem replyOkCancellable_run (g : RequestGuard) (data : Bytes) (host : Host) :
    (dropGuard (replyOkCancellable g data host)).2 = (Plan.cancellable data).run g.unique host := by
  simp only [dropGuard, replyOkCancellable, Plan.run, Plan.attempts]
  by_cases fits : Framable data.length
  · rw [sendReply_framable fits, if_pos fits]
    cases first : host.next with
    | ok => simp [WritevResult.toResult, cancellable, RequestGuard.drop]
    | err errno =>
        by_cases cancelled : errno = ENOENT
        · simp [WritevResult.toResult, cancelled, cancellable, IoError.rawOsError,
            RequestGuard.drop]
        · simp [WritevResult.toResult, cancelled, cancellable, IoError.rawOsError,
            RequestGuard.drop_eq, Host.extend_extend, Host.extend_one_next]
  · rw [sendReply_unframable fits, if_neg fits]
    exact g.drop_eq host

/-! ### The plan of a consuming call -/

/-- The unique of the guard in a request; a directory request may have lost its guard. -/
def Request.unique : Request → UInt64
  | .forget r => r.request.unique
  | .readdir r => (r.request.map RequestGuard.unique).getD 0
  | .readdirPlus r => (r.request.map RequestGuard.unique).getD 0
  | .lookup r => r.request.unique
  | .getattr r => r.request.unique
  | .setattr r => r.request.unique
  | .statfs r => r.request.unique
  | .mkdir r => r.request.unique
  | .create r => r.request.unique
  | .mknod r => r.request.unique
  | .open r => r.request.unique
  | .release r => r.request.unique
  | .read r => r.request.unique
  | .unlink r => r.request.unique
  | .rmdir r => r.request.unique
  | .write r => r.request.unique
  | .readlink r => r.request.unique
  | .rename r => r.request.unique
  | .listXAttrSize r => r.request.unique
  | .listXAttr r => r.request.unique
  | .getXAttrSize r => r.request.unique
  | .getXAttr r => r.request.unique

def ReaddirCommon.dropPlan (r : ReaddirCommon) : Plan :=
  match r.replyBuffer, r.request with
  | some _, some _ => .disarmed (- EIO) [[]] 0
  | none, some _ => .refused
  | _, none => .silent

def ReaddirCommon.failPlan (r : ReaddirCommon) (errno : Int32) : Plan :=
  match r.request with
  | some _ => .disarmed (-errno) [[]] 0
  | none => .silent

def ReaddirCommon.replyPlan (r : ReaddirCommon) : Plan :=
  match r.request, r.replyBuffer with
  | some _, some buf => .armed buf.filledData
  | some _, none => .refused
  | none, _ => .silent

def Request.dropPlan : Request → Plan
  | .forget _ => .silent
  | .readdir r => ReaddirCommon.dropPlan r
  | .readdirPlus r => ReaddirCommon.dropPlan r
  | _ => .refused

def Request.failPlan : Request → Int32 → Plan
  | .forget _, _ => .silent
  | .readdir r, errno => ReaddirCommon.failPlan r errno
  | .readdirPlus r, errno => ReaddirCommon.failPlan r errno
  | _, errno => .disarmed (-errno) [[]] 0

/-- Whatever the request, failing it sends the error or nothing. -/
theorem Request.failPlan_cases (r : Request) (errno : Int32) :
    r.failPlan errno = .silent ∨ r.failPlan errno = .disarmed (-errno) [[]] 0 := by
  cases r with
  | forget => exact .inl rfl
  | readdir r | readdirPlus r =>
      obtain ⟨request, inode, offset, buffer⟩ := r
      cases request
      · exact .inl rfl
      · exact .inr rfl
  | _ => exact .inr rfl

/-- A request that is dropped leaves its guard to answer, or a listing answers for it. -/
theorem Request.dropPlan_cases (r : Request) :
    r.dropPlan = .silent ∨ r.dropPlan = .refused ∨ r.dropPlan = .disarmed (- EIO) [[]] 0 := by
  cases r with
  | forget => exact .inl rfl
  | readdir r | readdirPlus r =>
      obtain ⟨request, inode, offset, buffer⟩ := r
      cases buffer <;> cases request
      · exact .inl rfl
      · exact .inr (.inl rfl)
      · exact .inl rfl
      · exact .inr (.inr rfl)
  | _ => exact .inr (.inl rfl)

def attrPlan {τ : Type} [Timeout τ] (stat : Stat) (timeout : τ) : Plan :=
  .armed (Packed.bytes (FuseAttrOut.mk (splitTimeout timeout).1 (splitTimeout timeout).2 0
    (FuseAttr.fromStat stat)))

def xattrSizePlan (size : Nat) : Plan :=
  if size < 2 ^ 32 then .armed (Packed.bytes (FuseGetxattrOut.mk (UInt32.ofNat size) 0))
    else .refused

def openOutBytes (info : FuseFileInfo) (fh : UInt64) : Bytes :=
  Packed.bytes (FuseOpenOut.mk fh info.openFlagsOut.bits 0)

def Consume.plan {τ : Type} [Timeout τ] : {r : Request} → Consume τ r → Plan
  | _, .drop r => r.dropPlan
  | _, .fail r errno => r.failPlan errno
  | _, .ioFail r error => r.failPlan (error.rawOsError.getD EIO)
  | _, .lookup _ entry => .cancellable (Packed.bytes (entryOutFromParam entry))
  | _, .forget _ => .silent
  | _, .getattr _ stat timeout => attrPlan stat timeout
  | _, .setattr _ stat timeout => attrPlan stat timeout
  | _, .statfs _ stbuf => .armed (Packed.bytes (FuseKstatfs.fromStatvfs stbuf))
  | _, .readdir r => ReaddirCommon.replyPlan r
  | _, .readdirPlus r => ReaddirCommon.replyPlan r
  | _, .mkdir _ entry => .armed (Packed.bytes (entryOutFromParam entry))
  | _, .create r entry fh =>
      .disarmed 0 [Packed.bytes (entryOutFromParam entry), openOutBytes r.fileInfo fh]
        (Packed.size FuseEntryOut + Packed.size FuseOpenOut)
  | _, .mknod _ entry => .armed (Packed.bytes (entryOutFromParam entry))
  | _, .open r fh => .cancellable (openOutBytes r.fileInfo fh)
  | _, .release _ => .armed []
  | _, .read r data => if data.length > r.size then .refused else .armed data
  | _, .readVectored r data =>
      if sliceTotal data > r.size then .refused else .disarmed 0 data (sliceTotal data)
  | _, .unlink _ => .armed []
  | _, .rmdir _ => .armed []
  | _, .rename _ => .armed []
  | _, .write r size =>
      if size > r.size then .refused
      else if size < 2 ^ 32 then .armed (Packed.bytes (FuseWriteOut.mk (UInt32.ofNat size) 0))
      else .refused
  | _, .readlink _ data =>
      match CStr.new data with
      | none => .refused
      | some data => .armed data.toBytes
  | _, .readlinkC _ data => .armed data.toBytes
  | _, .listXAttrSize _ size => xattrSizePlan size
  | _, .failFull _ => .disarmed (-ERANGE) [[]] 0
  | _, .listXAttr r => .armed r.response
  | _, .listXAttrRaw r data =>
      if data.length > r.size then .disarmed (-ERANGE) [[]] 0 else .armed data
  | _, .getXAttrSize _ size => xattrSizePlan size
  | _, .getXAttr r data =>
      if data.length > r.size then .disarmed (-ERANGE) [[]] 0 else .armed data

theorem refused_run (g : RequestGuard) (host : Host) :
    g.drop host = Plan.refused.run g.unique host :=
  g.drop_eq host

theorem silent_run (u : UInt64) (host : Host) : Plan.silent.run u host = host := host.extend_nil

theorem failRequest_run (g : RequestGuard) (errno : Int32) (host : Host) :
    (failRequest g errno host).2 = (Plan.disarmed (-errno) [[]] 0).run g.unique host :=
  replyErr_run g errno host

theorem ReaddirCommon.drop_run (r : ReaddirCommon) (host : Host) :
    r.drop host = r.dropPlan.run ((r.request.map RequestGuard.unique).getD 0) host := by
  rcases r with ⟨request, inode, offset, buffer⟩
  cases buffer <;> cases request
  · exact (silent_run _ host).symm
  · exact refused_run _ host
  · exact (silent_run _ host).symm
  · exact replyErr_run _ _ host

theorem ReaddirCommon.fail_run (r : ReaddirCommon) (errno : Int32) (host : Host) :
    (r.fail errno host).2 = (r.failPlan errno).run ((r.request.map RequestGuard.unique).getD 0)
      host := by
  rcases r with ⟨request, inode, offset, buffer⟩
  cases request
  · exact (silent_run _ host).symm
  · exact failRequest_run _ _ host

theorem ReaddirCommon.reply_run (r : ReaddirCommon) (host : Host) :
    (r.reply host).2 = r.replyPlan.run ((r.request.map RequestGuard.unique).getD 0) host := by
  rcases r with ⟨request, inode, offset, buffer⟩
  cases request <;> cases buffer
  · exact (silent_run _ host).symm
  · exact (silent_run _ host).symm
  · exact refused_run _ host
  · exact replyOk_run _ _ host

theorem Request.drop_run (r : Request) (host : Host) :
    r.drop host = r.dropPlan.run r.unique host := by
  cases r with
  | forget r => exact (silent_run _ host).symm
  | readdir r => exact ReaddirCommon.drop_run r host
  | readdirPlus r => exact ReaddirCommon.drop_run r host
  | _ => exact refused_run _ host

theorem Request.fail_run (r : Request) (errno : Int32) (host : Host) :
    (r.fail errno host).2 = (r.failPlan errno).run r.unique host := by
  cases r with
  | forget r => exact (silent_run _ host).symm
  | readdir r => exact ReaddirCommon.fail_run r errno host
  | readdirPlus r => exact ReaddirCommon.fail_run r errno host
  | _ => exact failRequest_run _ errno host

theorem replyXattrSize_run (g : RequestGuard) (size : Nat) (host : Host) :
    (dropGuard (replyXattrSize g size host)).2 = (xattrSizePlan size).run g.unique host := by
  unfold replyXattrSize xattrSizePlan
  split
  · exact replyOk_run g _ host
  · exact refused_run g host

/-- Every consuming call writes exactly what its plan says. -/
theorem Consume.run_eq {τ : Type} [Timeout τ] {r : Request} (c : Consume τ r) (host : Host) :
    c.run host = c.plan.run r.unique host := by
  cases c with
  | drop => exact r.drop_run host
  | fail _ errno => exact r.fail_run errno host
  | ioFail _ error => exact r.fail_run _ host
  | lookup r entry => exact replyOkCancellable_run r.request _ host
  | forget r => exact (silent_run _ host).symm
  | getattr r stat timeout => exact replyOk_run r.request _ host
  | setattr r stat timeout => exact replyOk_run r.request _ host
  | statfs r stbuf => exact replyOk_run r.request _ host
  | readdir r => exact ReaddirCommon.reply_run r host
  | readdirPlus r => exact ReaddirCommon.reply_run r host
  | mkdir r entry => exact replyOk_run r.request _ host
  | create r entry fh =>
      simp only [Consume.run, Consume.plan, Create.reply]
      exact sendReplyVectored_host r.request.unique _ _ host
  | mknod r entry => exact replyOk_run r.request _ host
  | «open» r fh => exact replyOkCancellable_run r.request _ host
  | release r => exact replyOk_run r.request _ host
  | read r data =>
      simp only [Consume.run, Consume.plan, Read.reply]
      split
      · exact refused_run r.request host
      · exact replyOk_run r.request data host
  | readVectored r data =>
      simp only [Consume.run, Consume.plan, Read.replyVectored]
      split
      · exact refused_run r.request host
      · exact sendReplyVectored_host _ _ _ host
  | unlink r => exact replyOk_run r.request _ host
  | rmdir r => exact replyOk_run r.request _ host
  | rename r => exact replyOk_run r.request _ host
  | write r size =>
      simp only [Consume.run, Consume.plan, Write.reply]
      split
      · exact refused_run r.request host
      · split
        · exact replyOk_run r.request _ host
        · exact refused_run r.request host
  | readlink r data =>
      simp only [Consume.run, Consume.plan, Readlink.reply]
      cases CStr.new data with
      | none => exact refused_run r.request host
      | some data => exact replyOk_run r.request _ host
  | readlinkC r data => exact replyOk_run r.request _ host
  | listXAttrSize r size => exact replyXattrSize_run r.request size host
  | failFull r => exact replyErr_run r.request _ host
  | listXAttr r => exact replyOk_run r.request _ host
  | listXAttrRaw r data =>
      simp only [Consume.run, Consume.plan, ListXAttr.replyRaw]
      split
      · exact replyErr_run r.request _ host
      · exact replyOk_run r.request _ host
  | getXAttrSize r size => exact replyXattrSize_run r.request size host
  | getXAttr r data =>
      simp only [Consume.run, Consume.plan, GetXAttr.reply]
      split
      · exact replyErr_run r.request _ host
      · exact replyOk_run r.request _ host

/-! ### What every plan keeps to -/

/-- The messages of one plan all carry the guard's unique. -/
theorem Plan.attempts_unique (u : UInt64) (first second : WritevResult) (plan : Plan) :
    ∀ a ∈ plan.attempts u first second, a.unique = u := by
  cases plan <;> simp only [Plan.attempts, framed, enosys] <;> grind [replyAttempt_unique]

/-- No message follows one that was accepted. -/
theorem Plan.attempts_pairwise (u : UInt64) (first second : WritevResult) (plan : Plan) :
    (plan.attempts u first second).Pairwise (fun a _ => a.result ≠ .ok) := by
  cases plan <;> simp only [Plan.attempts, framed, enosys] <;> grind [replyAttempt_result]

/-- The message a plan means to send, with the length it states for the payload. -/
def Plan.sends : Plan → Option (Int32 × List Bytes × Nat)
  | .disarmed e slices len => some (e, slices, len)
  | .armed data | .cancellable data => some (0, [data], data.length)
  | .silent | .refused => none

/-- Every message is the one the plan sends, if its length fits, or the guard's own. -/
theorem Plan.mem_attempts {u : UInt64} {first second : WritevResult} {plan : Plan} {a : Attempt}
    (member : a ∈ plan.attempts u first second) :
    (∃ e slices len o, plan.sends = some (e, slices, len) ∧ Framable len ∧
      a = replyAttempt u e slices len o) ∨
      ∃ o, a ∈ enosys u o := by
  cases plan with
  | silent => cases member
  | refused => exact .inr ⟨first, member⟩
  | disarmed e slices len =>
      simp only [Plan.attempts, framed] at member
      split at member
      · next fits => exact .inl ⟨e, slices, len, first, rfl, fits, List.mem_singleton.mp member⟩
      · cases member
  | armed data | cancellable data =>
      simp only [Plan.attempts] at member
      split at member
      · next fits =>
          have own : a = replyAttempt u 0 [data] data.length first ∨ a ∈ enosys u second := by
            split at member <;> simp_all
          exact own.imp (fun same => ⟨0, [data], data.length, first, rfl, fits, same⟩) fun left =>
            ⟨second, left⟩
      · exact .inr ⟨first, member⟩

/-- What a plan sends is the first thing it attempts. -/
theorem Plan.attempts_head {u : UInt64} {first second : WritevResult} {plan : Plan} {e : Int32}
    {slices : List Bytes} {len : Nat} (sends : plan.sends = some (e, slices, len))
    (fits : Framable len) :
    ∃ later, plan.attempts u first second = replyAttempt u e slices len first :: later := by
  cases plan with
  | silent | refused => cases sends
  | disarmed e slices len =>
      cases sends
      exact ⟨[], by rw [Plan.attempts, framed, if_pos fits]⟩
  | armed data | cancellable data =>
      cases sends
      rw [Plan.attempts, if_pos fits]
      split
      · exact ⟨[], rfl⟩
      · exact ⟨enosys u second, rfl⟩

/-- The guard's own message is an error reply. -/
theorem mem_enosys {u : UInt64} {o : WritevResult} {a : Attempt} (member : a ∈ enosys u o) :
    u ≠ 0 ∧ a = replyAttempt u (-ENOSYS) [[]] 0 o := by
  rw [enosys] at member
  split at member
  · cases member
  · next armed => exact ⟨armed, List.mem_singleton.mp member⟩

theorem enosys_error_ne_zero {u : UInt64} {o : WritevResult} {a : Attempt}
    (member : a ∈ enosys u o) :
    a.error ≠ 0 := by
  rw [(mem_enosys member).2, replyAttempt_error]
  decide

/-- The success replies of an armed guard carry its data, and there is one if the data fits. -/
theorem Plan.armed_success (u : UInt64) (data : Bytes) (first second : WritevResult) :
    (∀ a ∈ (Plan.armed data).attempts u first second, a.error = 0 → a.unique = u ∧
      a.payload = data) ∧
      (16 + data.length < 2 ^ 32 → ∃ a ∈ (Plan.armed data).attempts u first second,
        a.error = 0) := by
  constructor
  · intro a member ok
    obtain ⟨e, slices, len, o, sends, -, rfl⟩ | ⟨o, left⟩ := Plan.mem_attempts member
    · cases sends
      simp
    · exact absurd ok (enosys_error_ne_zero left)
  · intro fits
    obtain ⟨later, attempts⟩ : ∃ later, (Plan.armed data).attempts u first second = _ :: later :=
      Plan.attempts_head rfl fits
    rw [attempts]
    exact ⟨_, List.mem_cons_self, replyAttempt_error ..⟩

end ProxmoxFuse
