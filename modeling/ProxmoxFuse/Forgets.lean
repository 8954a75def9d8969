import ProxmoxFuse.Decoding

/-!
# Batches of forgets

A BATCH_FORGET carries a count and entries of 16 bytes behind 8 bytes of header.
The loop over them takes the count from the message, so it may name more entries
than there are, or fewer.
-/
namespace ProxmoxFuse

/-- The whole entries that a body has behind its header. -/
def batchRoom (body : Bytes) : Nat := (body.length - 8) / 16

/-- The node and the count of an entry. -/
def batchEntry (body : Bytes) (i : Nat) : UInt64 × UInt64 := Packed.ofBytes (body.drop (8 + 16 * i))

/-- A forget made of an entry, with a guard that never answers. -/
def entryForget (entry : UInt64 × UInt64) : Request := .forget ⟨⟨0⟩, entry.1, entry.2⟩

/-- The forgets of the first `n` entries. -/
def firstForgets (body : Bytes) (n : Nat) : List Request :=
  (List.range n).map fun i => entryForget (batchEntry body i)

section loop
variable {body : Bytes} {i : Nat}

/-- The loop ends at the first entry that is not there, whatever the count still says. -/
theorem batchForgets_stops (past : batchRoom body ≤ i) (n : Nat) (pushed : List Request) :
    batchForgets body i n pushed = (.ok (), pushed) := by
  cases n with
  | zero => rfl
  | succ n =>
      have header : Packed.size FuseBatchForgetIn = 8 := rfl
      have entry : Packed.size FuseForgetOne = 16 := rfl
      have outside : 8 + i * 16 + 16 > body.length := by
        simp only [batchRoom] at past
        omega
      rw [batchForgets, header, entry]
      dsimp only
      rw [if_pos outside]

/-- An entry that is there becomes a forget, and the loop goes on behind it. -/
theorem batchForgets_reads (inside : i < batchRoom body) (n : Nat) (pushed : List Request) :
    batchForgets body i (n + 1) pushed =
      batchForgets body (i + 1) n (pushed ++ [entryForget (batchEntry body i)]) := by
  have header : Packed.size FuseBatchForgetIn = 8 := rfl
  have entry : Packed.size FuseForgetOne = 16 := rfl
  have whole : 8 + 16 * i + 16 ≤ body.length := by
    simp only [batchRoom] at inside
    omega
  have rest : sliceFrom body (8 + 16 * i) = .ok (body.drop (8 + 16 * i)) := by
    rw [sliceFrom, if_pos (by omega)]
  have enough : Packed.size FuseForgetOne ≤ (body.drop (8 + 16 * i)).length := by
    rw [List.length_drop, entry]
    omega
  rw [batchForgets, header, entry, Nat.mul_comm i 16]
  dsimp only
  rw [if_neg (by omega), rest]
  simp only [bind, Except.bind, readBody_eq enough]
  rfl

/-- From an entry on, the loop yields as many entries as are both announced and there. -/
theorem batchForgets_eq (n : Nat) (pushed : List Request) :
    batchForgets body i n pushed =
      (.ok (), pushed ++ (List.range' i (min n (batchRoom body - i))).map fun j =>
        entryForget (batchEntry body j)) := by
  induction n generalizing i pushed with
  | zero => simp [batchForgets]
  | succ n ih =>
      by_cases inside : i < batchRoom body
      · have more : min (n + 1) (batchRoom body - i) = min n (batchRoom body - (i + 1)) + 1 := by
          omega
        rw [batchForgets_reads inside, ih, more, List.range'_succ]
        simp
      · have none : min (n + 1) (batchRoom body - i) = 0 := by omega
        rw [batchForgets_stops (Nat.not_lt.mp inside), none]
        simp

end loop

/-! ### Batches and single forgets -/

/-- A BATCH_FORGET as a kernel lays it out. -/
def batchMessage (h : KernelHeader) (dummy : UInt32) (pairs : List (UInt64 × UInt64)) : Bytes :=
  kernelMessage h 42 ((le32 (UInt32.ofNat pairs.length) ++ le32 dummy) ++
    pairs.flatMap fun p => le64 p.1 ++ le64 p.2)

/-- A FORGET of one pair. -/
def Delivery.Forgets (p : UInt64 × UInt64) (d : Delivery) : Prop :=
  ∃ h : KernelHeader, h.nodeid = p.1 ∧ d.bytes = (KernelRequest.forget p.2).encode h

/-- The node and the count a request forgets. -/
def Request.forgotten : Request → Option (UInt64 × UInt64)
  | .forget r => some (r.inode, r.count)
  | _ => none

theorem pairsBytes_length (pairs : List (UInt64 × UInt64)) :
    (pairs.flatMap fun p => le64 p.1 ++ le64 p.2).length = 16 * pairs.length := by
  have array : pairs.flatMap (fun p => le64 p.1 ++ le64 p.2) = Packed.arrayBytes pairs := rfl
  have size : Packed.size (UInt64 × UInt64) = 16 := rfl
  rw [array, Packed.arrayBytes_length, size, Nat.mul_comm]

/-- The entries behind `i` others are the pairs that are laid out there. -/
theorem batchForgets_pairs {body front : Bytes} {i : Nat} (pairs : List (UInt64 × UInt64))
    (layout : body = front ++ pairs.flatMap fun p => le64 p.1 ++ le64 p.2)
    (offset : front.length = 8 + 16 * i) (pushed : List Request) :
    batchForgets body i pairs.length pushed = (.ok (), pushed ++ pairs.map entryForget) := by
  induction pairs generalizing front i pushed with
  | nil => simp [batchForgets]
  | cons p pairs ih =>
      have first : body = front ++
          (Packed.bytes p ++ pairs.flatMap fun p => le64 p.1 ++ le64 p.2) := layout
      have size : (Packed.bytes p).length = 16 := Packed.bytes_length p
      have entry : batchEntry body i = p := by
        rw [batchEntry, ← offset, first, List.drop_left, Packed.ofBytes_append]
      have inside : i < batchRoom body := by
        have length := congrArg List.length first
        simp only [List.length_append, size] at length
        simp only [batchRoom]
        omega
      have behind : (front ++ Packed.bytes p).length = 8 + 16 * (i + 1) := by
        rw [List.length_append, size]
        omega
      rw [List.length_cons, batchForgets_reads inside, entry,
        ih (first.trans (List.append_assoc _ _ _).symm) behind]
      simp

section sessions
variable {fuse : Fuse} (host : Host)

/-- A batch is served by its loop, and nothing is written. -/
theorem batch_processed {d : Delivery} {header : FuseInHeader} {body : Bytes}
    (good : accepted d.bytes = some (header, body)) (opcode : header.opcode = 42)
    (long : 8 ≤ body.length) (ready : fuse.initDone = true) (on : fuse.ops.forget = true) :
    d.process (fuse, host) =
      (.ok (), { fuse with pending := fuse.pending ++
        (batchForgets body 0 (Packed.ofBytes body : UInt32 × UInt32).1.toNat []).2 }, host) := by
  have code : Opcode.fromU32 header.opcode = some .batchForget := by
    rw [opcode]
    rfl
  have fine := batchForgets_ok body 0 (Packed.ofBytes body : FuseBatchForgetIn).count.toNat []
  rw [Delivery.process, processRequest_serve fuse host d.filled good ready]
  simp only [Fuse.serve, code, dispatch, on, if_true, readBody_eq (α := FuseBatchForgetIn) long,
    fine, dropLive, Bool.or_false]
  rfl

/-- The batch of some pairs queues a forget for each of them. -/
theorem batch_message_processed {d : Delivery} {h : KernelHeader} {dummy : UInt32}
    {pairs : List (UInt64 × UInt64)} (bytes : d.bytes = batchMessage h dummy pairs)
    (fits : 40 + (8 + 16 * pairs.length) < 2 ^ 32) (ready : fuse.initDone = true)
    (on : fuse.ops.forget = true) :
    d.process (fuse, host) =
      (.ok (), { fuse with pending := fuse.pending ++ pairs.map entryForget }, host) := by
  have front : (le32 (UInt32.ofNat pairs.length) ++ le32 dummy).length = 8 := by simp [le32]
  have length := pairsBytes_length pairs
  have small : 40 + ((le32 (UInt32.ofNat pairs.length) ++ le32 dummy) ++
      pairs.flatMap fun p => le64 p.1 ++ le64 p.2).length < 2 ^ 32 := by
    rw [List.length_append, front, length]
    exact fits
  have good := kernelMessage_accepted h 42 small
  rw [← batchMessage, ← bytes] at good
  have count : (Packed.ofBytes ((le32 (UInt32.ofNat pairs.length) ++ le32 dummy) ++
      pairs.flatMap fun p => le64 p.1 ++ le64 p.2) : UInt32 × UInt32).1.toNat = pairs.length := by
    have fields : (Packed.ofBytes ((le32 (UInt32.ofNat pairs.length) ++ le32 dummy) ++
        pairs.flatMap fun p => le64 p.1 ++ le64 p.2) : UInt32 × UInt32) =
          (UInt32.ofNat pairs.length, dummy) :=
      Packed.ofBytes_append (α := UInt32 × UInt32) (UInt32.ofNat pairs.length, dummy) _
    have few : pairs.length < 2 ^ 32 := by omega
    rw [fields]
    exact UInt32.toNat_ofNat_of_lt' few
  have long : 8 ≤ ((le32 (UInt32.ofNat pairs.length) ++ le32 dummy) ++
      pairs.flatMap fun p => le64 p.1 ++ le64 p.2).length := by
    rw [List.length_append, front]
    omega
  rw [batch_processed host good rfl long ready on, count, batchForgets_pairs pairs rfl front]
  rfl

theorem forget_processed {p : UInt64 × UInt64} {d : Delivery} (single : d.Forgets p)
    (ready : fuse.initDone = true) (on : fuse.ops.forget = true) :
    ∃ unique, d.process (fuse, host) =
      (.ok (), { fuse with pending := fuse.pending ++ [.forget ⟨⟨unique⟩, p.1, p.2⟩] }, host) := by
  obtain ⟨h, node, bytes⟩ := single
  have fits : ((KernelRequest.forget p.2).encode h).length ≤ READ_BUF_SIZE := by
    have length : (KernelRequest.forget p.2).body.length = 8 := rfl
    rw [KernelRequest.encode, kernelMessage_length, length]
    decide
  refine ⟨h.unique, ?_⟩
  rw [Delivery.process_decodes host bytes fits ready on, ← node]
  rfl

/-- Single forgets queue their pairs in order. -/
theorem forgets_fed {pairs : List (UInt64 × UInt64)} {singles : List Delivery}
    (each : List.Forall₂ (fun p d => Delivery.Forgets p d) pairs singles) (fuse : Fuse)
    (ready : fuse.initDone = true) (on : fuse.ops.forget = true) :
    ∃ rs, feed (fuse, host) singles = ({ fuse with pending := fuse.pending ++ rs }, host) ∧
      rs.map Request.forgotten = pairs.map some := by
  induction each generalizing fuse with
  | nil => exact ⟨[], by simp [feed], rfl⟩
  | @cons p d pairs singles single _ ih =>
      obtain ⟨unique, processed⟩ := forget_processed host single ready on
      obtain ⟨rs, fed, forgotten⟩ :=
        ih { fuse with pending := fuse.pending ++ [.forget ⟨⟨unique⟩, p.1, p.2⟩] } ready on
      refine ⟨.forget ⟨⟨unique⟩, p.1, p.2⟩ :: rs, ?_, ?_⟩
      · have first : feed (fuse, host) (d :: singles) = feed (d.process (fuse, host)).2 singles :=
          rfl
        rw [first, processed, fed]
        simp
      · rw [List.map_cons, forgotten]
        rfl

/-- A batch queues the same pairs as one FORGET for each of them; whatever its count and
its body say, it queues the entries that are both announced and there. -/
theorem batch_is_its_forgets (ready : fuse.initDone = true) (on : fuse.ops.forget = true) :
    (∀ h dummy pairs (batch : Delivery) singles, 40 + (8 + 16 * pairs.length) < 2 ^ 32 →
      batch.bytes = batchMessage h dummy pairs →
        List.Forall₂ (fun p d => Delivery.Forgets p d) pairs singles →
      ∃ batched single, feed (fuse, host) [batch] =
        ({ fuse with pending := fuse.pending ++ batched }, host) ∧
        feed (fuse, host) singles = ({ fuse with pending := fuse.pending ++ single }, host) ∧
        batched.map Request.forgotten = pairs.map some ∧ single.map Request.forgotten =
          pairs.map some) ∧
    (∀ (d : Delivery) header body n, accepted d.bytes = some (header, body) → header.opcode = 42 →
      8 ≤ body.length →
      n = min (Packed.ofBytes body : UInt32 × UInt32).1.toNat ((body.length - 8) / 16) →
      d.process (fuse, host) =
        (.ok (), { fuse with pending := fuse.pending ++ firstForgets body n }, host)) ∧
    ∀ body i n pushed,
      ((body.length - 8) / 16 ≤ i → batchForgets body i n pushed = (.ok (), pushed)) ∧
      (i < (body.length - 8) / 16 → batchForgets body i (n + 1) pushed =
        batchForgets body (i + 1) n (pushed ++ [entryForget (batchEntry body i)])) := by
  refine ⟨?_, ?_, ?_⟩
  · intro h dummy pairs batch singles fits bytes each
    obtain ⟨single, fed, forgotten⟩ := forgets_fed host each fuse ready on
    refine ⟨pairs.map entryForget, single, ?_, fed, ?_, forgotten⟩
    · have one : feed (fuse, host) [batch] = (batch.process (fuse, host)).2 := rfl
      rw [one, batch_message_processed host bytes fits ready on]
    · rw [List.map_map]
      rfl
  · intro d header body n good opcode long whole
    rw [batch_processed host good opcode long ready on, batchForgets_eq, whole, firstForgets,
      List.range_eq_range']
    rfl
  · intro body i n pushed
    exact ⟨fun past => batchForgets_stops past n pushed,
      fun inside => batchForgets_reads inside n pushed⟩

end sessions

/-- A session that takes forgets. -/
def forgetting : Fuse × Host :=
  ((World.mounted { forget := true } true (fun _ => .ok) 4096).fuse,
    (World.mounted { forget := true } true (fun _ => .ok) 4096).host)

def someHeader (nodeid : UInt64) : KernelHeader := ⟨7, nodeid, 0, 0, 0, 0, 0⟩

theorem batch_is_its_forgets_two :
    ∃ batched single,
      feed forgetting [.alone (batchMessage (someHeader 1) 0 [(5, 1), (6, 2)])] =
        ({ forgetting.1 with pending := forgetting.1.pending ++ batched }, forgetting.2) ∧
      feed forgetting [.alone ((KernelRequest.forget 1).encode (someHeader 5)),
          .alone ((KernelRequest.forget 2).encode (someHeader 6))] =
        ({ forgetting.1 with pending := forgetting.1.pending ++ single }, forgetting.2) ∧
      batched.map Request.forgotten = [some (5, 1), some (6, 2)] ∧
      single.map Request.forgotten = [some (5, 1), some (6, 2)] :=
  (batch_is_its_forgets forgetting.2 rfl rfl).1 (someHeader 1) 0 [(5, 1), (6, 2)] _ _
    (by decide) rfl
    (.cons ⟨someHeader 5, rfl, rfl⟩ (.cons ⟨someHeader 6, rfl, rfl⟩ .nil))

end ProxmoxFuse
