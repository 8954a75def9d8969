import ProxmoxFuse.Decoding
import ProxmoxFuse.Framing
import ProxmoxFuse.Grammar
import ProxmoxFuse.Listing
import ProxmoxFuse.XattrNames

/-!
# Replies within what was asked for

Reads, listings and extended attributes come with a size that their replies must
not exceed, and a write with a count. The limit is kept in six types of requests,
by the calls that collect a reply and by those that send one.
-/
namespace ProxmoxFuse

/-- The size that the body of a request asks for; for a write, the size of its data. -/
def Request.requested (body : Bytes) : Request → Nat
  | .read _ | .readdir _ | .readdirPlus _ => (Packed.ofBytes body : FuseReadIn).size.toNat
  | .listXAttr _ | .getXAttr _ => (Packed.ofBytes body : FuseGetxattrIn).size.toNat
  | .write _ => (Packed.ofBytes body : FuseWriteIn).size.toNat
  | _ => 0

/-- A request that an open session made of a message with this body. -/
def Decoded (body : Bytes) (r : Request) : Prop :=
  ∃ (fuse : Fuse) (host : Host) (d : Delivery) (header : FuseInHeader) (rs : List Request),
    fuse.initDone = true ∧
    accepted d.bytes = some (header, body) ∧ (d.process (fuse, host)).2.1.pending =
      fuse.pending ++ rs ∧ r ∈ rs

/-- Any calls that keep the request, in any order and number. -/
def Called (τ : Type) [Timeout τ] : Request → Request → Prop :=
  Relation.ReflTransGen fun r r' => ∃ call : Call τ r, call.after = r'

/-- What is collected in a request does not exceed `s`, the size it was made with. -/
def Request.Within (s : Nat) : Request → Prop
  | .read r => r.size = s
  | .readdir r => ∃ buf, r.replyBuffer = some buf ∧ buf.buffer.length = s
  | .readdirPlus r => ∃ buf, r.replyBuffer = some buf ∧ buf.buffer.length = s
  | .listXAttr r => r.size = s ∧ r.response.length ≤ s
  | .getXAttr r => r.size = s
  | .write r => r.size = s
  | _ => True

theorem Request.requested_lt (body : Bytes) (r : Request) : r.requested body < 2 ^ 32 := by
  cases r with
  | read | readdir | readdirPlus | listXAttr | getXAttr | write => exact UInt32.toNat_lt _
  | _ => exact Nat.two_pow_pos 32

theorem Decoded.sized {body : Bytes} {r : Request} (decoded : Decoded body r) : r.Sized body := by
  obtain ⟨fuse, host, d, header, rs, ready, good, queue, member⟩ := decoded
  obtain ⟨rs', queue', made⟩ := serve_made fuse header body d.buf d.bytes.length host d.heap
  have same : fuse.pending ++ rs = fuse.pending ++ rs' := by
    rw [← queue, ← queue', Delivery.process, processRequest_serve fuse host d.filled good ready]
  obtain rfl := List.append_cancel_left same
  obtain ⟨o, -, each⟩ := made (List.ne_nil_of_mem member)
  exact (each r member).sized

/-- A decoded request has the size of its message, and nothing is collected in it. -/
theorem Decoded.within {body : Bytes} {r : Request} (decoded : Decoded body r) :
    r.Within (r.requested body) := by
  have sized := decoded.sized
  cases r with
  | read r => exact sized
  | readdir r => exact ⟨_, sized, List.length_replicate⟩
  | readdirPlus r => exact ⟨_, sized, List.length_replicate⟩
  | listXAttr r =>
      refine ⟨sized.1, ?_⟩
      rw [sized.2]
      exact Nat.zero_le _
  | getXAttr r => exact sized
  | write r => exact sized
  | _ => trivial

/-! ### Calls that keep the request -/

section calls
variable {τ : Type} [Timeout τ] {s : Nat}

/-- An entry is added within the buffer, or not at all. -/
theorem Added.within {l : Records.Layout UInt8} {r r' : ReaddirCommon} {buf : ReplyBuf}
    {header name : Bytes} {result : Except Fault ReplyBufState}
    (added : Added l r buf header name (result, r')) (filling : r.replyBuffer = some buf) :
    ∃ buf', r'.replyBuffer = some buf' ∧ buf'.buffer.length = buf.buffer.length := by
  cases added with
  | invalid => exact ⟨buf, filling, rfl⟩
  | full => exact ⟨buf, filling, rfl⟩
  | ok _ _ buf' size => exact ⟨buf', rfl, size⟩

theorem ListXAttr.addBytesWithZero_within {r : ListXAttr} (bytes : Bytes)
    (within : r.size = s ∧ r.response.length ≤ s) :
    (r.addBytesWithZero bytes).2.size = s ∧ (r.addBytesWithZero bytes).2.response.length ≤ s := by
  rw [r.addBytesWithZero_eq]
  split
  · next room =>
      refine ⟨within.1, ?_⟩
      rw [List.length_append, ← within.1]
      exact room
  · exact within

theorem Call.within {r : Request} (call : Call τ r) (within : r.Within s) :
    call.after.Within s := by
  cases call with
  | readdirAdd r name stat next =>
      obtain ⟨buf, filling, size⟩ := within
      obtain ⟨buf', filled, same⟩ :=
        ((ReaddirEntry.mk name stat next).added r buf filling).within filling
      exact ⟨buf', filled, same.trans size⟩
  | readdirPlusAdd r name stat next generation attrTimeout entryTimeout =>
      obtain ⟨buf, filling, size⟩ := within
      obtain ⟨buf', filled, same⟩ := ((ReaddirPlusEntry.mk name stat next generation attrTimeout
        entryTimeout).added r buf filling).within filling
      exact ⟨buf', filled, same.trans size⟩
  | createInfo => trivial
  | openInfo => trivial
  | add r name | addBytesWithoutZero r name =>
      have terminated := ListXAttr.addBytesWithZero_within (name ++ [0]) within
      rw [← r.addBytesWithoutZero_eq] at terminated
      exact terminated
  | addBytesWithZero r name => exact ListXAttr.addBytesWithZero_within name within
  | addCString r name => exact ListXAttr.addBytesWithZero_within _ within
  | setRawReply r data =>
      simp only [Call.after, ListXAttr.setRawReply]
      split
      · exact within
      · next small => exact ⟨within.1, within.1 ▸ Nat.not_lt.mp small⟩

theorem Called.within {r r' : Request} (calls : Called τ r r') (within : r.Within s) :
    r'.Within s := by
  induction calls with
  | refl => exact within
  | tail _ step ih =>
      obtain ⟨call, rfl⟩ := step
      exact call.within ih

end calls

/-! ### Calls that send a reply -/

section replies
variable {τ : Type}

/-- The requests whose replies carry what was asked for. -/
def Request.Limited : Request → Prop
  | .read _ | .readdir _ | .readdirPlus _ | .listXAttr _ | .getXAttr _ => True
  | _ => False

def Request.IsWrite : Request → Prop
  | .write _ => True
  | _ => False

/-- The data of `ListXAttr::reply_raw` and of `GetXAttr::reply`. -/
def Consume.raw : {r : Request} → Consume τ r → Option Bytes
  | _, .listXAttrRaw _ data | _, .getXAttr _ data => some data
  | _, _ => none

/-- A read or a write that is answered with more than was asked for. -/
def Consume.Oversized (s : Nat) : {r : Request} → Consume τ r → Prop
  | _, .read _ data => s < data.length
  | _, .readVectored _ data => s < (data.map List.length).sum
  | _, .write _ size => s < size
  | _, _ => False

/-- A reply to a read or a write returns an error. -/
def Consume.Errs (host : Host) : {r : Request} → Consume τ r → Prop
  | _, .read r data => Fails (r.reply data host).1
  | _, .readVectored r data => Fails (r.replyVectored data host).1
  | _, .write r size => Fails (r.reply size host).1
  | _, _ => False

/-- A call on a `ListXAttr` that returns `Full` or an error. -/
def Call.Refused : {r : Request} → Call τ r → Prop
  | _, .add r name => (r.add name).1 = .full
  | _, .addBytesWithoutZero r name => (r.addBytesWithoutZero name).1 = .full
  | _, .addBytesWithZero r name => (r.addBytesWithZero name).1 = .full
  | _, .addCString r name => (r.addCString name).1 = .full
  | _, .setRawReply r data => Fails (r.setRawReply data).1
  | _, _ => False

/-- Slices whose total wraps around to a size that is accepted. -/
def Consume.Wraps (s : Nat) : {r : Request} → Consume τ r → Prop
  | _, .readVectored _ data =>
      2 ^ 64 ≤ (data.map List.length).sum ∧ (data.map List.length).sum % 2 ^ 64 ≤ s ∧
        16 + (data.map List.length).sum % 2 ^ 64 < 2 ^ 32
  | _, _ => False

variable [Timeout τ]

/-- A reply, and the calls before it, keep to the size `s`. -/
structure Limits (s : Nat) {r : Request} (c : Consume τ r) (host : Host) : Prop where
  payload : r.Limited → ∀ a ∈ written host (c.run host), a.error = 0 → a.payload.length ≤ s
  reported : r.IsWrite → ∀ a ∈ written host (c.run host), a.error = 0 →
    (Packed.ofBytes a.payload : UInt32).toNat ≤ s
  erange : ∀ data, c.raw = some data →
    ((∃ a ∈ written host (c.run host), a.error = -ERANGE) ↔ s < data.length)
  oversized : c.Oversized s → c.Errs host ∧ ∀ a ∈ written host (c.run host), a.error ≠ 0
  unchanged : ∀ call : Call τ r, call.Refused → call.after = r

variable {r : Request} {s : Nat} {host : Host}

theorem Request.failPlan_sends {errno e : Int32} {slices : List Bytes} {len : Nat}
    (sends : (r.failPlan errno).sends = some (e, slices, len)) : slices.flatten = [] := by
  obtain silent | sent := r.failPlan_cases errno
  · rw [silent] at sends
    cases sends
  · rw [sent] at sends
    cases sends
    rfl

theorem Request.dropPlan_sends {e : Int32} {slices : List Bytes} {len : Nat}
    (sends : r.dropPlan.sends = some (e, slices, len)) : slices.flatten = [] := by
  obtain silent | refused | sent := r.dropPlan_cases
  · rw [silent] at sends
    cases sends
  · rw [refused] at sends
    cases sends
  · rw [sent] at sends
    cases sends
    rfl

/-- A success reply is what the plan of its call sends. -/
theorem Consume.success_sends (c : Consume τ r) {a : Attempt}
    (member : a ∈ written host (c.run host)) (ok : a.error = 0) :
    ∃ slices len, c.plan.sends = some (0, slices, len) ∧ Framable len ∧
      a.payload = slices.flatten := by
  rw [c.run_eq, Plan.run, written_extend] at member
  obtain ⟨e, slices, len, o, sends, fits, rfl⟩ | ⟨o, own⟩ := Plan.mem_attempts member
  · rw [replyAttempt_error] at ok
    subst ok
    exact ⟨slices, len, sends, fits, replyAttempt_payload ..⟩
  · exact absurd ok (enosys_error_ne_zero own)

theorem sends_ite {p : Prop} [Decidable p] {a b : Plan} {sent : Int32 × List Bytes × Nat}
    (sends : (if p then a else b).sends = some sent) :
    (p ∧ a.sends = some sent) ∨ (¬ p ∧ b.sends = some sent) := by
  split at sends
  · next yes => exact .inl ⟨yes, sends⟩
  · next no => exact .inr ⟨no, sends⟩

/-- Data that is checked against a size first is sent only within it. -/
theorem checked_sends {data : Bytes} {size : Nat} {refusal : Plan} {slices : List Bytes} {len : Nat}
    (errs : ∀ sent, refusal.sends = some sent → sent.1 ≠ 0)
    (sends : (if data.length > size then refusal else .armed data).sends = some (0, slices, len)) :
    slices.flatten.length ≤ size := by
  obtain ⟨-, refused⟩ | ⟨small, sends⟩ := sends_ite sends
  · exact absurd rfl (errs _ refused)
  · cases sends
    rw [List.flatten_singleton]
    exact Nat.not_lt.mp small

theorem refused_errs : ∀ sent, Plan.refused.sends = some sent → sent.1 ≠ 0 := by
  intro sent sends
  cases sends

theorem rangePlan_errs :
    ∀ sent, (Plan.disarmed (-ERANGE) [[]] 0).sends = some sent → sent.1 ≠ 0 := by
  intro sent sends
  cases sends
  decide

/-- What a call on a limited request sends is within the limit, unless slices wrap around. -/
theorem Consume.sends_within (c : Consume τ r) (within : r.Within s) (limited : r.Limited)
    (unwrapped : ¬ c.Wraps s) {slices : List Bytes} {len : Nat}
    (sends : c.plan.sends = some (0, slices, len)) (fits : Framable len) :
    slices.flatten.length ≤ s := by
  have nothing : slices.flatten = [] → slices.flatten.length ≤ s := by
    intro empty
    rw [empty]
    exact Nat.zero_le _
  cases c with
  | drop => exact nothing (Request.dropPlan_sends sends)
  | fail => exact nothing (Request.failPlan_sends sends)
  | ioFail => exact nothing (Request.failPlan_sends sends)
  | readdir r | readdirPlus r =>
      obtain ⟨buf, filling, size⟩ := within
      obtain ⟨request, inode, offset, buffer⟩ := r
      subst filling
      cases request <;> cases sends
      rw [List.flatten_singleton, buf.filledData_length, ← size]
      exact buf.filled_le
  | read r data =>
      rw [← within]
      exact checked_sends refused_errs sends
  | readVectored r data =>
      obtain ⟨-, no⟩ | ⟨small, sends⟩ := sends_ite sends
      · cases no
      · cases sends
        have total : sliceTotal slices ≤ s := within ▸ Nat.not_lt.mp small
        have below : (slices.map List.length).sum < 2 ^ 64 := by
          by_contra wide
          exact unwrapped ⟨Nat.not_lt.mp wide, total, fits⟩
        rwa [sliceTotal_eq below] at total
  | listXAttr r =>
      cases sends
      rw [List.flatten_singleton]
      exact within.2
  | failFull r => cases sends
  | listXAttrRaw r data =>
      rw [← within.1]
      exact checked_sends rangePlan_errs sends
  | getXAttr r data =>
      rw [← within]
      exact checked_sends rangePlan_errs sends
  | _ => cases limited

/-- What a call on a write sends counts no more than there was to write. -/
theorem Consume.sends_reported (c : Consume τ r) (within : r.Within s) (write : r.IsWrite)
    {slices : List Bytes} {len : Nat} (sends : c.plan.sends = some (0, slices, len)) :
    (Packed.ofBytes slices.flatten : UInt32).toNat ≤ s := by
  have nothing : slices.flatten = [] → (Packed.ofBytes slices.flatten : UInt32).toNat ≤ s := by
    intro empty
    rw [empty]
    exact Nat.zero_le _
  cases c with
  | drop => exact nothing (Request.dropPlan_sends sends)
  | fail => exact nothing (Request.failPlan_sends sends)
  | ioFail => exact nothing (Request.failPlan_sends sends)
  | write r size =>
      obtain ⟨-, no⟩ | ⟨small, sends⟩ := sends_ite sends
      · cases no
      · obtain ⟨narrow, sends⟩ | ⟨-, no⟩ := sends_ite sends
        · cases sends
          have first : (Packed.ofBytes
              [Packed.bytes (FuseWriteOut.mk (UInt32.ofNat size) 0)].flatten : UInt32) =
              UInt32.ofNat size := by
            rw [List.flatten_singleton]
            exact Packed.ofBytes_append (UInt32.ofNat size) _
          rw [first, UInt32.toNat_ofNat_of_lt' narrow, ← within]
          exact Nat.not_lt.mp small
        · cases no
  | _ => cases write

/-- Data that is too long is answered with `ERANGE`, and nothing else is. -/
theorem rawPlan_erange (u : UInt64) (first second : WritevResult) (data : Bytes) (size : Nat) :
    (∃ a ∈ (if data.length > size then Plan.disarmed (-ERANGE) [[]] 0 else .armed data).attempts u
      first second,
      a.error = -ERANGE) ↔ size < data.length := by
  split
  · next long =>
      refine iff_of_true ⟨replyAttempt u (-ERANGE) [[]] 0 first, ?_, replyAttempt_error ..⟩ long
      exact List.mem_singleton_self _
  · next small =>
      refine iff_of_false ?_ small
      rintro ⟨a, member, error⟩
      obtain ⟨e, slices, len, o, sends, -, rfl⟩ | ⟨o, own⟩ := Plan.mem_attempts member
      · cases sends
        rw [replyAttempt_error] at error
        exact absurd error (by decide)
      · obtain ⟨-, rfl⟩ := mem_enosys own
        rw [replyAttempt_error] at error
        exact absurd error (by decide)

theorem Consume.raw_erange (c : Consume τ r) (within : r.Within s) {data : Bytes}
    (raw : c.raw = some data) :
    (∃ a ∈ written host (c.run host), a.error = -ERANGE) ↔ s < data.length := by
  rw [c.run_eq, Plan.run, written_extend]
  cases c with
  | listXAttrRaw r data =>
      cases raw
      rw [← within.1]
      exact rawPlan_erange ..
  | getXAttr r data =>
      cases raw
      rw [← within]
      exact rawPlan_erange ..
  | _ => cases raw

theorem Consume.oversized_refused (c : Consume τ r) (within : r.Within s) (unwrapped : ¬ c.Wraps s)
    (oversized : c.Oversized s) : c.Errs host ∧ ∀ a ∈ written host (c.run host), a.error ≠ 0 := by
  cases c with
  | read r data =>
      have untaken : ¬ r.Takes data.length :=
        fun takes => Nat.not_lt.mpr takes.1 (within ▸ oversized)
      refine ⟨r.reply_untaken host data untaken, ?_⟩
      intro a member ok
      exact untaken ((r.reply_takes host data).mp ⟨a, member, ok⟩)
  | readVectored r data =>
      have untaken : ¬ r.Takes (sliceTotal data) := by
        rintro ⟨small, fits⟩
        have total : sliceTotal data ≤ s := within ▸ small
        by_cases below : (data.map List.length).sum < 2 ^ 64
        · rw [sliceTotal, Nat.mod_eq_of_lt below] at total
          exact Nat.not_lt.mpr total oversized
        · exact unwrapped ⟨Nat.not_lt.mp below, total, fits⟩
      refine ⟨r.replyVectored_untaken host data untaken, ?_⟩
      intro a member ok
      exact untaken ((r.replyVectored_takes host data).mp ⟨a, member, ok⟩)
  | write r size =>
      have large : size > r.size := within ▸ oversized
      refine ⟨?_, ?_⟩
      · rw [Consume.Errs, Write.reply, if_pos large]
        exact ⟨_, rfl⟩
      · intro a member
        rw [Consume.run_eq, Consume.plan, if_pos large, Plan.run, written_extend] at member
        exact enosys_error_ne_zero member
  | _ => cases oversized

theorem ListXAttr.addBytesWithZero_full {r : ListXAttr} {bytes : Bytes}
    (full : (r.addBytesWithZero bytes).1 = .full) :
    (r.addBytesWithZero bytes).2 = r := by
  rw [r.addBytesWithZero_eq] at full ⊢
  split at full
  · cases full
  · next short => rw [if_neg short]

theorem Call.refused_unchanged (call : Call τ r) (refused : call.Refused) : call.after = r := by
  cases call with
  | add r name | addBytesWithoutZero r name =>
      have terminated := r.addBytesWithoutZero_eq name
      have full : (r.addBytesWithZero (name ++ [0])).1 = .full := terminated ▸ refused
      exact congrArg Request.listXAttr
        ((congrArg Prod.snd terminated).trans (ListXAttr.addBytesWithZero_full full))
  | addBytesWithZero r name =>
      exact congrArg Request.listXAttr (ListXAttr.addBytesWithZero_full refused)
  | addCString r name => exact congrArg Request.listXAttr (ListXAttr.addBytesWithZero_full refused)
  | setRawReply r data =>
      obtain ⟨e, error⟩ := refused
      simp only [Call.after, ListXAttr.setRawReply] at error ⊢
      split at error
      · next large => rw [if_pos large]
      · cases error
  | _ => cases refused

/-- Slices that wrap around are sent as a success reply. -/
theorem Consume.wraps_exceeds (c : Consume τ r) (within : r.Within s) (narrow : s < 2 ^ 32)
    (wraps : c.Wraps s) (host : Host) : ¬ Limits s c host := by
  intro limits
  cases c with
  | readVectored r data =>
      obtain ⟨wide, small, fits⟩ := wraps
      have takes : r.Takes (sliceTotal data) := ⟨within.symm ▸ small, fits⟩
      obtain ⟨a, member, ok⟩ := (r.replyVectored_takes host data).mpr takes
      have bound := limits.payload trivial a member ok
      rw [Read.replyVectored_written, if_neg (Nat.not_lt.mpr takes.1)] at member
      obtain ⟨-, rfl⟩ := mem_framed member
      rw [replyAttempt_payload, List.length_flatten] at bound
      omega
  | _ => cases wraps

/-- Replies to a decoded request keep to the size in its message, whatever was called on
it before, exactly if they are no slices whose total wraps around. -/
theorem replies_within_iff {body : Bytes} {r₀ r : Request} (decoded : Decoded body r₀)
    (calls : Called τ r₀ r) (c : Consume τ r) (host : Host) :
    Limits (r₀.requested body) c host ↔ ¬ c.Wraps (r₀.requested body) := by
  have within := calls.within decoded.within
  have narrow := r₀.requested_lt body
  constructor
  · intro limits wraps
    exact c.wraps_exceeds within narrow wraps host limits
  · intro unwrapped
    refine ⟨?_, ?_, ?_, ?_, ?_⟩
    · intro limited a member ok
      obtain ⟨slices, len, sends, fits, payload⟩ := c.success_sends member ok
      rw [payload]
      exact c.sends_within within limited unwrapped sends fits
    · intro write a member ok
      obtain ⟨slices, len, sends, -, payload⟩ := c.success_sends member ok
      rw [payload]
      exact c.sends_reported within write sends
    · intro data raw
      exact c.raw_erange within raw
    · intro oversized
      exact c.oversized_refused within unwrapped oversized
    · intro call refused
      exact call.refused_unchanged refused

end replies

/-- A read of four bytes, and the request it becomes. -/
def fourBytes : KernelRequest := .read ⟨0, 0, 4, 0, 0, 0, 0⟩

def fourRead : Read := ⟨⟨7⟩, 1, 0, 4, 0⟩

theorem fourRead_decoded : Decoded fourBytes.body (.read fourRead) := by
  refine ⟨(World.mounted { read := true } true (fun _ => .ok) 4096).fuse,
    (World.mounted { read := true } true (fun _ => .ok) 4096).host,
      .alone (fourBytes.encode lookupHeader),
    lookupHeader.inHeader 15 40, [.read fourRead], rfl, ?_, ?_, List.mem_singleton_self _⟩
  · exact kernelMessage_accepted lookupHeader 15 (by decide)
  · rw [Delivery.process_decodes _ rfl (by decide) rfl rfl]
    rfl

theorem replies_within_read :
    Limits ((Request.read fourRead).requested fourBytes.body)
      (Consume.readVectored (τ := UInt64 × UInt32) fourRead [[1], [2]])
      ⟨fun _ => .ok, 4096, []⟩ := by
  refine (replies_within_iff fourRead_decoded .refl _ _).mpr ?_
  rintro ⟨wide, -⟩
  exact absurd wide (by decide)

/-- The same bytes over and over. -/
def repeated (n m : Nat) : List Bytes := List.replicate n (List.replicate m 0)

theorem repeated_total (n m : Nat) : ((repeated n m).map List.length).sum = n * m := by
  simp [repeated]

/-- A mapping of 1 TiB repeated until the total wraps around to zero is sent in reply to a
read of four bytes, however the write ends. -/
theorem wrapped_slices_exceed :
    Decoded fourBytes.body (.read fourRead) ∧ ∀ outcome : WritevResult,
      ¬ Limits ((Request.read fourRead).requested fourBytes.body)
        (Consume.readVectored (τ := UInt64 × UInt32) fourRead (repeated (2 ^ 24) (2 ^ 40)))
          ⟨fun _ => outcome, 4096, []⟩ := by
  refine ⟨fourRead_decoded, ?_⟩
  intro outcome
  refine Consume.wraps_exceeds _ fourRead_decoded.within (Request.requested_lt _ _) ?_ _
  rw [Consume.Wraps, repeated_total]
  decide

end ProxmoxFuse
