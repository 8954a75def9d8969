import ProxmoxFuse.ReplyPlan
import ProxmoxFuse.SignedWords

/-!
# The framing of replies

What the kernel reads back from each write. A reply is a header of 16 bytes and
its payload, and the kernel takes it only if the length in the header is that of
the write. Two functions frame replies; the vectored one is told the length of
its payload by its callers.
-/
namespace ProxmoxFuse

/-- The kernel's reading of one write: the request, the error and the payload. -/
def parseReply (message : Bytes) : Option (UInt64 × Int32 × Bytes) :=
  let fields : UInt32 × Int32 × UInt64 := Packed.ofBytes message
  if 16 ≤ message.length ∧ fields.1.toNat = message.length then
    some (fields.2.2, fields.2.1, message.drop 16)
  else none

/-- A write of a header and a payload, with the length of both in the header. -/
structure Framed (unique : UInt64) (error : Int32) (payload : Bytes) (a : Attempt) : Prop where
  layout : ∃ (len : UInt32) (slices : List Bytes),
    a.iov = Packed.bytes (len, error, unique) :: slices ∧
    slices.flatten = payload ∧ len.toNat = 16 + payload.length
  parsed : parseReply a.message = some (unique, error, payload)

/-- A framed reply parses whatever its parts are. -/
theorem parseReply_bytes {len : UInt32} {payload : Bytes} (exact : len.toNat = 16 + payload.length)
    (error : Int32) (unique : UInt64) :
    parseReply (Packed.bytes (len, error, unique) ++ payload) = some (unique, error, payload) := by
  have header : (Packed.bytes (len, error, unique)).length = 16 := Packed.bytes_length _
  have length : (Packed.bytes (len, error, unique) ++ payload).length = 16 + payload.length := by
    rw [List.length_append, header]
  have fields := Packed.ofBytes_append (len, error, unique) payload
  rw [parseReply, fields, length, List.drop_left' header]
  exact if_pos ⟨by omega, exact⟩

theorem replyAttempt_framed {slices : List Bytes} {len : Nat} (fits : Framable len)
    (total : slices.flatten.length = len) (u : UInt64) (e : Int32) (o : WritevResult) :
    Framed u e slices.flatten (replyAttempt u e slices len o) := by
  have header : Packed.size FuseOutHeader = 16 := rfl
  have exact : (UInt32.ofNat (Packed.size FuseOutHeader + len)).toNat =
      16 + slices.flatten.length := by
    rw [total, ← header]
    exact UInt32.toNat_ofNat_of_lt' fits
  exact ⟨⟨_, slices, rfl, rfl, exact⟩, parseReply_bytes exact e u⟩

theorem replyAttempt_framed_one {data : Bytes} (fits : Framable data.length) (u : UInt64)
    (e : Int32) (o : WritevResult) : Framed u e data (replyAttempt u e [data] data.length o) := by
  have flat : [data].flatten = data := List.flatten_singleton
  have framed := replyAttempt_framed fits (congrArg List.length flat) u e o
  rwa [flat] at framed

/-! ### The writes of a call -/

/-- The writes made between two states of the host. -/
def written (host after : Host) : List Attempt := after.log.drop host.log.length

@[simp] theorem written_extend (host : Host) (attempts : List Attempt) :
    written host (host.extend attempts) = attempts := by
  rw [written, Host.extend_log, List.drop_left]

theorem mem_framed {u : UInt64} {e : Int32} {slices : List Bytes} {len : Nat} {o : WritevResult}
    {a : Attempt} (member : a ∈ framed u e slices len o) :
    Framable len ∧ a = replyAttempt u e slices len o := by
  rw [framed] at member
  split at member
  · next fits => exact ⟨fits, List.mem_singleton.mp member⟩
  · cases member

section calls
variable {τ : Type}

/-- The errors that a call may answer with. -/
def Consume.errnos : {r : Request} → Consume τ r → List Int32
  | _, .fail _ errno => [errno]
  | _, .ioFail _ error => [error.rawOsError.getD EIO]
  | _, .failFull _ => [ERANGE]
  | _, .listXAttrRaw _ _ | _, .getXAttr _ _ => [ERANGE, ENOSYS]
  | _, .drop _ => [ EIO, ENOSYS]
  | _, .create _ _ _ => []
  | _, _ => [ENOSYS]

variable [Timeout τ]

/-- The payload of the success reply that a call asks for. -/
def Consume.payload : {r : Request} → Consume τ r → Option Bytes
  | _, .lookup _ entry => some (Packed.bytes (entryOutFromParam entry))
  | _, .getattr _ stat timeout => some (Packed.bytes (FuseAttrOut.mk (splitTimeout timeout).1
      (splitTimeout timeout).2 0 (FuseAttr.fromStat stat)))
  | _, .setattr _ stat timeout => some (Packed.bytes (FuseAttrOut.mk (splitTimeout timeout).1
      (splitTimeout timeout).2 0 (FuseAttr.fromStat stat)))
  | _, .statfs _ stbuf => some (Packed.bytes (FuseKstatfs.fromStatvfs stbuf))
  | _, .readdir r => r.replyBuffer.map ReplyBuf.filledData
  | _, .readdirPlus r => r.replyBuffer.map ReplyBuf.filledData
  | _, .mkdir _ entry => some (Packed.bytes (entryOutFromParam entry))
  | _, .create r entry fh =>
      some (Packed.bytes (entryOutFromParam entry) ++ openOutBytes r.fileInfo fh)
  | _, .mknod _ entry => some (Packed.bytes (entryOutFromParam entry))
  | _, .open r fh => some (openOutBytes r.fileInfo fh)
  | _, .release _ => some []
  | _, .read _ data => some data
  | _, .readVectored _ data => some data.flatten
  | _, .unlink _ => some []
  | _, .rmdir _ => some []
  | _, .rename _ => some []
  | _, .write _ size => some (Packed.bytes (FuseWriteOut.mk (UInt32.ofNat size) 0))
  | _, .readlink _ data => some data
  | _, .readlinkC _ data => some data.toBytes
  | _, .listXAttrSize _ size => some (Packed.bytes (FuseGetxattrOut.mk (UInt32.ofNat size) 0))
  | _, .listXAttr r => some r.response
  | _, .listXAttrRaw _ data => some data
  | _, .getXAttrSize _ size => some (Packed.bytes (FuseGetxattrOut.mk (UInt32.ofNat size) 0))
  | _, .getXAttr _ data => some data
  | _, .drop _ | _, .fail _ _ | _, .ioFail _ _ | _, .forget _ | _, .failFull _ => none

/-- A plan that sends nothing but a payload, whose length is stated right if it `fits`, or one of
some errors. -/
def Plan.Keeps (payload : Option Bytes) (fits : Prop) (errnos : List Int32) : Plan → Prop
  | .silent => True
  | .refused => ENOSYS ∈ errnos
  | .armed data | .cancellable data => payload = some data ∧ ENOSYS ∈ errnos
  | .disarmed e slices len =>
      (e = 0 ∧ payload = some slices.flatten ∧ (fits → slices.flatten.length = len)) ∨
        ∃ errno ∈ errnos, e = -errno ∧ slices.flatten = [] ∧ len = 0

/-- A write of a payload, framed if its length `fits`, or of an error out of some. -/
def Answer (u : UInt64) (payload : Option Bytes) (fits : Prop) (errnos : List Int32) (a : Attempt) :
    Prop :=
  (∃ data, payload = some data ∧ a.unique = u ∧ a.error = 0 ∧ a.payload = data ∧
      (fits → Framed u 0 data a)) ∨
    ∃ errno ∈ errnos, Framed u (-errno) [] a

theorem enosys_framed {u : UInt64} {o : WritevResult} {a : Attempt} (member : a ∈ enosys u o) :
    Framed u (-ENOSYS) [] a := by
  obtain ⟨-, rfl⟩ := mem_enosys member
  have fits : Framable ([] : Bytes).length := by decide
  exact replyAttempt_framed_one fits u (-ENOSYS) o

theorem Plan.Keeps.answer {payload : Option Bytes} {total : Prop} {errnos : List Int32}
    {plan : Plan} (keeps : plan.Keeps payload total errnos) (u : UInt64)
    (first second : WritevResult) :
    ∀ a ∈ plan.attempts u first second, Answer u payload total errnos a := by
  intro a member
  cases plan with
  | silent => cases member
  | refused => exact .inr ⟨ENOSYS, keeps, enosys_framed member⟩
  | armed data | cancellable data =>
      obtain ⟨e, slices, len, o, sends, fits, rfl⟩ | ⟨o, own⟩ := Plan.mem_attempts member
      · cases sends
        refine .inl ⟨data, keeps.1, replyAttempt_unique .., replyAttempt_error .., ?_, ?_⟩
        · rw [replyAttempt_payload, List.flatten_singleton]
        · exact fun _ => replyAttempt_framed_one fits u 0 o
      · exact .inr ⟨ENOSYS, keeps.2, enosys_framed own⟩
  | disarmed e slices len =>
      obtain ⟨fits, rfl⟩ := mem_framed member
      rcases keeps with ⟨rfl, same, exact⟩ | ⟨errno, known, rfl, empty, rfl⟩
      · refine .inl ⟨slices.flatten, same, replyAttempt_unique .., replyAttempt_error ..,
          replyAttempt_payload .., fun total => ?_⟩
        exact replyAttempt_framed fits (exact total) u 0 first
      · have framed := replyAttempt_framed fits (congrArg List.length empty) u (-errno) first
        rw [empty] at framed
        exact .inr ⟨errno, known, framed⟩

/-- The length that `Read::reply_vectored` states is that of its slices, unless the sum wraps. -/
theorem sliceTotal_eq {data : List Bytes} (exact : (data.map List.length).sum < 2 ^ 64) :
    sliceTotal data = data.flatten.length := by
  rw [sliceTotal, Nat.mod_eq_of_lt exact, List.length_flatten]

end calls

/-! ### Plain and vectored reads -/

section reads
variable (r : Read) (host : Host)

/-- A read that asked for so much, and a reply that can be framed. -/
def Read.Takes (n : Nat) : Prop := n ≤ r.size ∧ Framable n

theorem Read.reply_written (data : Bytes) :
    written host (r.reply data host).2 =
      (if data.length > r.size then Plan.refused else .armed data).attempts r.request.unique
        host.next host.second := by
  have run := Consume.run_eq (Consume.read (τ := UInt64 × UInt32) r data) host
  have same : (Consume.read (τ := UInt64 × UInt32) r data).run host = (r.reply data host).2 := rfl
  rw [← same, run, Plan.run, written_extend]
  rfl

theorem Read.replyVectored_written (slices : List Bytes) :
    written host (r.replyVectored slices host).2 =
      (if sliceTotal slices > r.size then Plan.refused
        else .disarmed 0 slices (sliceTotal slices)).attempts
        r.request.unique host.next host.second := by
  have run := Consume.run_eq (Consume.readVectored (τ := UInt64 × UInt32) r slices) host
  have same : (Consume.readVectored (τ := UInt64 × UInt32) r slices).run host =
      (r.replyVectored slices host).2 := rfl
  rw [← same, run, Plan.run, written_extend]
  rfl

/-- The plain reply writes its data exactly if it takes so much. -/
theorem Read.reply_takes (data : Bytes) :
    (∃ a ∈ written host (r.reply data host).2, a.error = 0) ↔ r.Takes data.length := by
  rw [Read.reply_written]
  constructor
  · rintro ⟨a, member, ok⟩
    split at member
    · exact absurd ok (enosys_error_ne_zero member)
    · next small =>
        obtain ⟨e, slices, len, o, sends, fits, -⟩ | ⟨o, own⟩ := Plan.mem_attempts member
        · cases sends
          exact ⟨Nat.not_lt.mp small, fits⟩
        · exact absurd ok (enosys_error_ne_zero own)
  · rintro ⟨small, fits⟩
    rw [if_neg (Nat.not_lt.mpr small)]
    exact (Plan.armed_success r.request.unique data host.next host.second).2 fits

theorem Read.replyVectored_takes (slices : List Bytes) :
    (∃ a ∈ written host (r.replyVectored slices host).2, a.error = 0) ↔
      r.Takes (sliceTotal slices) := by
  rw [Read.replyVectored_written]
  constructor
  · rintro ⟨a, member, ok⟩
    split at member
    · exact absurd ok (enosys_error_ne_zero member)
    · next small => exact ⟨Nat.not_lt.mp small, (mem_framed member).1⟩
  · rintro ⟨small, fits⟩
    rw [if_neg (Nat.not_lt.mpr small), Plan.attempts, framed, if_pos fits]
    exact ⟨_, List.mem_singleton_self _, replyAttempt_error ..⟩

theorem Read.reply_untaken (data : Bytes) (refused : ¬ r.Takes data.length) :
    Fails (r.reply data host).1 := by
  rw [Read.reply]
  split
  · exact ⟨_, rfl⟩
  · next small =>
      have long : ¬ Framable data.length := fun fits => refused ⟨Nat.not_lt.mp small, fits⟩
      rw [replyOk_result, sendReply_unframable long]
      exact ⟨_, rfl⟩

theorem Read.replyVectored_untaken (slices : List Bytes) (refused : ¬ r.Takes (sliceTotal slices)) :
    Fails (r.replyVectored slices host).1 := by
  rw [Read.replyVectored]
  split
  · exact ⟨_, rfl⟩
  · next small =>
      have long : ¬ Framable (sliceTotal slices) := fun fits => refused ⟨Nat.not_lt.mp small, fits⟩
      exact ⟨_, congrArg Prod.fst (sendReplyVectored_unframable long ..)⟩

end reads

/-! ### The framing of every reply -/

end ProxmoxFuse
