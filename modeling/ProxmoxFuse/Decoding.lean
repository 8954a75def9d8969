import ProxmoxFuse.FlagWords
import ProxmoxFuse.KernelEncoding

/-!
# Decoding undoes the kernel's encoding

One round trip for each request: the fixed structure is read back from the front
of the body, names are found behind it, and the arm of the dispatcher queues the
request the encoding stands for.
-/
namespace ProxmoxFuse

/-- The header of an encoded message, in the crate's structure. -/
def KernelHeader.inHeader (h : KernelHeader) (opcode : UInt32) (bodyLen : Nat) : FuseInHeader :=
  ⟨UInt32.ofNat (40 + bodyLen), opcode, h.unique, h.nodeid, h.uid, h.gid, h.pid, h.totalExtlen,
    h.padding⟩

theorem kernelMessage_accepted (h : KernelHeader) (opcode : UInt32) {body : Bytes}
    (fits : 40 + body.length < 2 ^ 32) :
    accepted (kernelMessage h opcode body) = some (h.inHeader opcode body.length, body) := by
  have split : kernelMessage h opcode body = Packed.bytes (h.inHeader opcode body.length) ++ body :=
    rfl
  have len : (h.inHeader opcode body.length).len.toNat = 40 + body.length :=
    UInt32.toNat_ofNat_of_lt' fits
  rw [split, accepted_bytes len]

theorem kernelMessage_length (h : KernelHeader) (opcode : UInt32) (body : Bytes) :
    (kernelMessage h opcode body).length = 40 + body.length := by
  simp [kernelMessage, le16, le32, le64]
  omega

/-- The operation a request belongs to is enabled. -/
def KernelRequest.enabledIn (ops : EnabledOps) : KernelRequest → Bool
  | .lookup .. => ops.lookup
  | .forget .. => ops.forget
  | .getattr .. => ops.getattr
  | .setattr .. => ops.setattr
  | .statfs => ops.statfs
  | .readlink => ops.readlink
  | .mknod .. => ops.mknod
  | .mkdir .. => ops.mkdir
  | .unlink .. => ops.unlink
  | .rmdir .. => ops.rmdir
  | .rename2 .. => ops.rename
  | .open .. => ops.open
  | .release .. => ops.release
  | .read .. => ops.read
  | .write .. => ops.write
  | .create .. => ops.create
  | .readdir .. => ops.readdir
  | .readdirplus .. => ops.readdirplus
  | .listxattr .. => ops.listxattr
  | .getxattr .. => ops.getxattr

/-- How the arm of a decoded request is left. -/
def decodedExit (r : Request) (heap : ArcHeap Bytes) : Exit :=
  { result := .ok (), guard := none, pushed := [r], finished := false, heap := r.retainBuffer heap }

theorem guarded_decodes {guard : RequestGuard} {heap : ArcHeap Bytes} {enabled : Bool}
    (on : enabled = true) {r : Request} {built : Except Fault (Request × ArcHeap Bytes)}
    (done : built = .ok (r, r.retainBuffer heap)) :
    (if enabled then queueOne guard heap built else unserved guard heap) = decodedExit r heap := by
  rw [if_pos on, done]
  rfl

/-- A declared flag survives the truncation exactly if its bit is set. -/
theorem BitFlags.truncated_contains {known : UInt32} (bits : UInt32) {flag : BitFlags known}
    {i : Nat} (single : flag.bits.toNat = 2 ^ i) (declared : known &&& flag.bits = flag.bits) :
    (BitFlags.fromBitsTruncate bits : BitFlags known).contains flag = bits.toNat.testBit i := by
  rw [Bool.eq_iff_iff, BitFlags.contains, BitFlags.fromBitsTruncate, beq_iff_eq, UInt32.and_assoc,
    declared]
  exact FlagWords.and_eq_self_iff single bits

/-- The file handle is present exactly if its bit is set in the word of the message. -/
theorem contains_fh (valid : UInt32) :
    (BitFlags.fromBitsTruncate valid : FattrFlags).contains FattrFlags.FH = true ↔
      valid &&& 0x40 ≠ 0 := by
  have single : FattrFlags.FH.bits.toNat = 2 ^ 6 := by decide
  rw [BitFlags.truncated_contains valid single (by decide), ← FlagWords.and_ne_zero_iff single]
  rfl

section arms
variable (ops : EnabledOps) (h : KernelHeader) (buf : Nat) (heap : ArcHeap Bytes)

/-- The arm that a message of `q` runs into. -/
def KernelRequest.dispatched (q : KernelRequest) (o : Opcode) : Exit :=
  dispatch ops (h.inHeader q.opcode q.body.length) q.body buf (40 + q.body.length) ⟨h.unique⟩ heap o

theorem getxattr_decodes (size padding : UInt32) (name : CStr) (on : ops.getxattr = true) :
    (KernelRequest.getxattr size padding name).dispatched ops h buf heap .getxattr =
      decodedExit ((KernelRequest.getxattr size padding name).request h buf) heap := by
  have body : (KernelRequest.getxattr size padding name).body =
      Packed.bytes (FuseGetxattrIn.mk size padding) ++ (name.toBytes ++ [0]) := rfl
  have read := nameFromBytes_terminated name.noNul []
  apply guarded_decodes on
  rw [body, readBody_bytes, nameAfter_bytes, read]
  simp only [bind, Except.bind, pure, Except.pure, KernelRequest.request]
  split <;> rfl

theorem listxattr_decodes (size padding : UInt32) (on : ops.listxattr = true) :
    (KernelRequest.listxattr size padding).dispatched ops h buf heap .listxattr =
      decodedExit ((KernelRequest.listxattr size padding).request h buf) heap := by
  have body : (KernelRequest.listxattr size padding).body =
      Packed.bytes (FuseGetxattrIn.mk size padding) ++ [] := rfl
  apply guarded_decodes on
  rw [body, readBody_bytes]
  simp only [bind, Except.bind, pure, Except.pure, KernelRequest.request]
  split <;> rfl

theorem write_decodes (fh offset : UInt64) (writeFlags : UInt32) (lockOwner : UInt64)
    (flags padding : UInt32) (data : Bytes) (on : ops.write = true) (fits : data.length < 2 ^ 32) :
    (KernelRequest.write fh offset writeFlags lockOwner flags padding data).dispatched ops h buf
      heap .write =
      decodedExit ((KernelRequest.write fh offset writeFlags lockOwner flags padding data).request h
        buf)
        heap := by
  have body : (KernelRequest.write fh offset writeFlags lockOwner flags padding data).body =
      Packed.bytes (FuseWriteIn.mk fh offset (UInt32.ofNat data.length) writeFlags lockOwner flags
        padding) ++
        data := rfl
  have size : (UInt32.ofNat data.length).toNat = data.length := UInt32.toNat_ofNat_of_lt' fits
  have start : Packed.size FuseInHeader + Packed.size FuseWriteIn = 80 := rfl
  have length : (Packed.bytes
      (FuseWriteIn.mk fh offset (UInt32.ofNat data.length) writeFlags lockOwner flags
      padding) ++ data).length = 40 + data.length := by
    rw [List.length_append, Packed.bytes_length]
    rfl
  apply guarded_decodes on
  rw [body, readBody_bytes, length]
  simp only [bind, Except.bind, size, start]
  rw [if_neg (by omega), if_neg (by omega)]
  rfl

theorem setattr_decodes (s : KernelSetattr) (on : ops.setattr = true) :
    (KernelRequest.setattr s).dispatched ops h buf heap .setattr =
      decodedExit ((KernelRequest.setattr s).request h buf) heap := by
  have body : (KernelRequest.setattr s).body =
      Packed.bytes (FuseSetattrIn.mk s.valid s.padding s.fh s.size s.lockOwner s.atime
        s.mtime s.ctime
        s.atimensec s.mtimensec s.ctimensec s.mode s.unused4 s.uid s.gid s.unused5) ++ [] := rfl
  apply guarded_decodes on
  rw [body, readBody_bytes]
  simp only [bind, Except.bind, contains_fh]
  rfl

/-- The arms of the requests that are a terminated name or nothing. -/
theorem named_decodes {q : KernelRequest} {o : Opcode} {name : CStr} (make : Bytes → Request)
    {enabled : Bool} (on : enabled = true) (body : q.body = name.toBytes ++ [0])
    (arm : q.dispatched ops h buf heap o =
      if enabled then queueOne ⟨h.unique⟩ heap (.ok (make (nameFromBytes q.body), heap))
      else unserved ⟨h.unique⟩ heap)
    (plain : (make name.toBytes).retainBuffer heap = heap)
    (request : q.request h buf = make name.toBytes) :
    q.dispatched ops h buf heap o = decodedExit (q.request h buf) heap := by
  rw [arm, request, body, nameFromBytes_terminated name.noNul []]
  exact guarded_decodes on (by rw [plain])

/-- The arms that read a fixed structure and nothing behind it. -/
theorem fixed_decodes {α : Type} [Packed α] {q : KernelRequest} {o : Opcode} (a : α)
    (make : α → Request) {enabled : Bool} (on : enabled = true)
    (body : q.body = Packed.bytes a ++ []) (arm : q.dispatched ops h buf heap o =
      if enabled then queueOne ⟨h.unique⟩ heap (do return (make (← readBody α q.body), heap))
      else unserved ⟨h.unique⟩ heap)
    (plain : (make a).retainBuffer heap = heap) (request : q.request h buf = make a) :
    q.dispatched ops h buf heap o = decodedExit (q.request h buf) heap := by
  rw [arm, request, body, readBody_bytes]
  exact guarded_decodes on (by rw [plain]; rfl)

/-- The arms that read a fixed structure and the name behind it. -/
theorem fixed_named_decodes {α : Type} [Packed α] {q : KernelRequest} {o : Opcode} (a : α)
    {name : CStr} (make : α → Bytes → Request) {enabled : Bool} (on : enabled = true)
    (body : q.body = Packed.bytes a ++ (name.toBytes ++ [0]))
    (arm : q.dispatched ops h buf heap o =
      if enabled then queueOne ⟨h.unique⟩ heap
        (do return (make (← readBody α q.body) (← nameAfter α q.body), heap))
      else unserved ⟨h.unique⟩ heap)
    (plain : (make a name.toBytes).retainBuffer heap = heap)
    (request : q.request h buf = make a name.toBytes) :
    q.dispatched ops h buf heap o = decodedExit (q.request h buf) heap := by
  rw [arm, request, body, readBody_bytes, nameAfter_bytes, nameFromBytes_terminated name.noNul []]
  exact guarded_decodes on (by rw [plain]; rfl)

/-- The structure READ and its relatives share. -/
def KernelRead.readIn (r : KernelRead) : FuseReadIn :=
  ⟨r.fh, r.offset, r.size, r.readFlags, r.lockOwner, r.flags, r.padding⟩

/-- Every encoded request is decoded by the arm of its opcode. -/
theorem dispatched_decodes (q : KernelRequest) (on : q.enabledIn ops = true)
    (fits : q.body.length < 2 ^ 32) :
    ∃ o, Opcode.fromU32 q.opcode = some o ∧
      q.dispatched ops h buf heap o = decodedExit (q.request h buf) heap := by
  cases q with
  | lookup name =>
      exact ⟨.lookup, rfl, named_decodes ops h buf heap
        (fun name => .lookup ⟨⟨h.unique⟩, h.nodeid, name⟩)
        on rfl rfl rfl rfl⟩
  | unlink name =>
      exact ⟨.unlink, rfl, named_decodes ops h buf heap
        (fun name => .unlink ⟨⟨h.unique⟩, h.nodeid, name⟩)
        on rfl rfl rfl rfl⟩
  | rmdir name =>
      exact ⟨.rmdir, rfl, named_decodes ops h buf heap
        (fun name => .rmdir ⟨⟨h.unique⟩, h.nodeid, name⟩)
        on rfl rfl rfl rfl⟩
  | getattr flags dummy fh => exact ⟨.getattr, rfl, guarded_decodes on rfl⟩
  | statfs => exact ⟨.statfs, rfl, guarded_decodes on rfl⟩
  | readlink => exact ⟨.readlink, rfl, guarded_decodes on rfl⟩
  | forget nlookup =>
      have body : (KernelRequest.forget nlookup).body = Packed.bytes (FuseForgetIn.mk nlookup) ++
          [] := rfl
      have on' : ops.forget = true := on
      refine ⟨.forget, rfl, ?_⟩
      simp only [KernelRequest.dispatched, dispatch, body, readBody_bytes, on', if_true]
      rfl
  | setattr s => exact ⟨.setattr, rfl, setattr_decodes ops h buf heap s on⟩
  | mknod mode rdev umask padding name =>
      exact ⟨.mknod, rfl, fixed_named_decodes ops h buf heap
        (FuseMknodIn.mk mode rdev umask padding)
        (fun m name => .mknod ⟨⟨h.unique⟩, h.nodeid, name, m.mode, m.rdev.toUInt64⟩) on
          rfl rfl rfl rfl⟩
  | mkdir mode umask name =>
      exact ⟨.mkdir, rfl, fixed_named_decodes ops h buf heap (FuseMkdirIn.mk mode umask)
        (fun m name => .mkdir ⟨⟨h.unique⟩, h.nodeid, name, m.mode⟩) on rfl rfl rfl rfl⟩
  | create flags mode umask openFlags name =>
      exact ⟨.create, rfl, fixed_named_decodes ops h buf heap
        (FuseCreateIn.mk flags mode umask openFlags)
        (fun c name => .create ⟨⟨h.unique⟩, h.nodeid, name, c.mode, {}⟩) on rfl rfl rfl rfl⟩
  | rename2 newdir flags padding name newName =>
      have body : (KernelRequest.rename2 newdir flags padding name newName).body =
          Packed.bytes (FuseRename2In.mk newdir flags padding) ++
            (name.toBytes ++ 0 :: (newName.toBytes ++ 0 :: [])) := rfl
      refine ⟨.rename2, rfl, guarded_decodes on ?_⟩
      rw [body, readBody_bytes, twoNamesAfter_bytes _ name.noNul newName.noNul]
      rfl
  | «open» flags openFlags =>
      exact ⟨.open, rfl, fixed_decodes ops h buf heap (FuseOpenIn.mk flags openFlags)
        (fun o => .open ⟨⟨h.unique⟩, h.nodeid, o.flags.toInt32, {}⟩) on rfl rfl rfl rfl⟩
  | release fh flags releaseFlags lockOwner =>
      exact ⟨.release, rfl, fixed_decodes ops h buf heap
        (FuseReleaseIn.mk fh flags releaseFlags lockOwner)
        (fun r => .release ⟨⟨h.unique⟩, h.nodeid, r.fh, r.flags.toInt32⟩) on rfl rfl rfl rfl⟩
  | read r =>
      exact ⟨.read, rfl, fixed_decodes ops h buf heap r.readIn
        (fun r => .read ⟨⟨h.unique⟩, h.nodeid, r.fh, r.size.toNat, r.offset⟩) on rfl rfl rfl rfl⟩
  | readdir r =>
      exact ⟨.readdir, rfl, fixed_decodes ops h buf heap r.readIn
        (fun r => .readdir (ReaddirCommon.new ⟨h.unique⟩ h.nodeid r.size.toNat r.offset)) on
          rfl rfl rfl rfl⟩
  | readdirplus r =>
      exact ⟨.readdirplus, rfl, fixed_decodes ops h buf heap r.readIn
        (fun r => .readdirPlus (ReaddirCommon.new ⟨h.unique⟩ h.nodeid r.size.toNat r.offset)) on
          rfl rfl rfl rfl⟩
  | write fh offset writeFlags lockOwner flags padding data =>
      have short : data.length < 2 ^ 32 := by
        simp only [KernelRequest.body, List.length_append, KernelRequest.tail] at fits
        omega
      exact ⟨.write, rfl, write_decodes ops h buf heap _ _ _ _ _ _ data on short⟩
  | listxattr size padding =>
      exact ⟨.listxattr, rfl, listxattr_decodes ops h buf heap size padding on⟩
  | getxattr size padding name =>
      exact ⟨.getxattr, rfl, getxattr_decodes ops h buf heap size padding name on⟩

end arms

theorem KernelRequest.request_unique (h : KernelHeader) (buf : Nat) (q : KernelRequest) :
    (q.request h buf).unique = h.unique := by
  cases q with
  | listxattr size padding =>
      simp only [KernelRequest.request]
      split <;> rfl
  | getxattr size padding name =>
      simp only [KernelRequest.request]
      split <;> rfl
  | _ => rfl

/-- The data of a decoded `Write` is the payload behind its two headers. -/
theorem KernelRequest.request_data (h : KernelHeader) (buf : Nat) (q : KernelRequest) {rest : Bytes}
    {heap : ArcHeap Bytes} (filled : heap.value buf = q.encode h ++ rest) (r : Write)
    (write : q.request h buf = .write r) : r.data heap = .ok q.tail := by
  cases q with
  | write fh offset writeFlags lockOwner flags padding data =>
      cases write
      have header : (kernelMessage h 16 []).length = 40 := kernelMessage_length h 16 []
      have front : heap.value buf = (Packed.bytes (h.inHeader 16
          (KernelRequest.write fh offset writeFlags lockOwner flags padding data).body.length) ++
          (KernelRequest.write fh offset writeFlags lockOwner flags padding data).fixed) ++
            (data ++ rest) := by
        rw [filled, List.append_assoc]
        exact (List.append_assoc _ _ _).trans (congrArg _ (List.append_assoc _ _ _))
      have eighty : (Packed.bytes (h.inHeader 16
          (KernelRequest.write fh offset writeFlags lockOwner flags padding data).body.length) ++
          (KernelRequest.write fh offset writeFlags lockOwner flags padding data).fixed).length =
            80 := by
        rw [List.length_append, Packed.bytes_length]
        rfl
      generalize Packed.bytes (h.inHeader 16
          (KernelRequest.write fh offset writeFlags lockOwner flags padding data).body.length) ++
          (KernelRequest.write fh offset writeFlags lockOwner flags padding data).fixed =
            headers at front eighty
      have upTo : sliceTo (heap.value buf) (80 + data.length) = .ok (headers ++ data) := by
        rw [front, sliceTo, if_pos (by simp; omega), ← List.append_assoc,
          List.take_left' (by simp [eighty])]
      simp only [Write.data, upTo, bind, Except.bind]
      rw [sliceFrom, if_pos (by simp; omega), List.drop_left' eighty]
      rfl
  | listxattr size padding =>
      simp only [KernelRequest.request] at write
      split at write <;> cases write
  | getxattr size padding name =>
      simp only [KernelRequest.request] at write
      split at write <;> cases write
  | _ => cases write

theorem processRequest_decodes (h : KernelHeader) (q : KernelRequest) (fuse : Fuse) (buf : Nat)
    (rest : Bytes) (host : Host) (heap : ArcHeap Bytes) (fits : (q.encode h).length ≤ READ_BUF_SIZE)
    (filled : heap.value buf = q.encode h ++ rest) (ready : fuse.initDone = true)
    (on : q.enabledIn fuse.ops = true) :
    fuse.processRequest buf (q.encode h).length host heap =
      (.ok (), { fuse with pending := fuse.pending ++ [q.request h buf] }, host,
        (q.request h buf).retainBuffer heap) := by
  have length := kernelMessage_length h q.opcode q.body
  have small : 40 + q.body.length < 2 ^ 32 := by
    have bound : READ_BUF_SIZE < 2 ^ 32 := by decide
    have same : (q.encode h).length = 40 + q.body.length := length
    omega
  obtain ⟨o, known, decoded⟩ := dispatched_decodes fuse.ops h buf heap q on (by omega)
  rw [processRequest_serve fuse host filled (kernelMessage_accepted h q.opcode small) ready]
  have same : dispatch fuse.ops (h.inHeader q.opcode q.body.length) q.body buf (q.encode h).length
      (RequestGuard.new h.unique) heap o = decodedExit (q.request h buf) heap := by
    rw [← decoded, KernelRequest.encode, length]
    rfl
  unfold Fuse.serve
  have code : Opcode.fromU32 (h.inHeader q.opcode q.body.length).opcode = some o := known
  have guard : RequestGuard.new (h.inHeader q.opcode q.body.length).unique =
      RequestGuard.new h.unique := rfl
  simp only [code, guard, same, decodedExit, dropLive, Bool.or_false]

theorem Delivery.process_decodes {d : Delivery} {h : KernelHeader} {q : KernelRequest} {fuse : Fuse}
    (host : Host) (bytes : d.bytes = q.encode h) (fits : (q.encode h).length ≤ READ_BUF_SIZE)
    (ready : fuse.initDone = true) (on : q.enabledIn fuse.ops = true) :
    d.process (fuse, host) =
      (.ok (), { fuse with pending := fuse.pending ++ [q.request h d.buf] }, host) := by
  have decoded :=
    processRequest_decodes h q fuse d.buf d.rest host d.heap fits (bytes ▸ d.filled) ready on
  rw [Delivery.process, bytes, decoded]

/-- Processing an encoded request queues exactly that request and writes nothing. -/
theorem processRequest_encode (h : KernelHeader) (q : KernelRequest) (fuse : Fuse) (buf : Nat)
    (rest : Bytes) (host : Host) (heap : ArcHeap Bytes) (fits : (q.encode h).length ≤ READ_BUF_SIZE)
    (filled : heap.value buf = q.encode h ++ rest) (ready : fuse.initDone = true)
    (on : q.enabledIn fuse.ops = true) :
    fuse.processRequest buf (q.encode h).length host heap =
      (.ok (), { fuse with pending := fuse.pending ++ [q.request h buf] }, host,
        (q.request h buf).retainBuffer heap) ∧
    (q.request h buf).unique = h.unique ∧
    ∀ r, q.request h buf = .write r → r.data ((q.request h buf).retainBuffer heap) =
      .ok q.tail := by
  refine ⟨processRequest_decodes h q fuse buf rest host heap fits filled ready on,
    q.request_unique h buf, ?_⟩
  intro r write
  have filled' : ((q.request h buf).retainBuffer heap).value buf = q.encode h ++ rest := by
    rw [← filled]
    cases q.request h buf <;> rfl
  exact q.request_data h buf filled' r write

/-- A LOOKUP of `a` in the root. -/
def lookupHeader : KernelHeader := ⟨7, 1, 0, 0, 0, 0, 0⟩

theorem processRequest_encode_lookup :
    ((World.mounted { lookup := true } true (fun _ => .ok) 4096).fuse.processRequest 0
      ((KernelRequest.lookup ⟨[97], by decide⟩).encode lookupHeader).length
      (World.mounted { lookup := true } true (fun _ => .ok) 4096).host
      ⟨fun _ => (KernelRequest.lookup ⟨[97], by decide⟩).encode lookupHeader ++ [], fun _ => 1,
        1⟩).2.1.pending =
      [.lookup ⟨⟨7⟩, 1, [97]⟩] := by
  have decoded := (processRequest_encode lookupHeader (.lookup ⟨[97], by decide⟩)
    (World.mounted { lookup := true } true (fun _ => .ok) 4096).fuse 0 []
    (World.mounted { lookup := true } true (fun _ => .ok) 4096).host
    ⟨fun _ => (KernelRequest.lookup ⟨[97], by decide⟩).encode lookupHeader ++ [], fun _ => 1, 1⟩
    (by decide) rfl rfl rfl).1
  rw [decoded]
  rfl

/-! ### The two wire forms of a rename -/

/-- RENAME carries no flags; a kernel sends RENAME2 where there are any. -/
inductive RenameForm where
  | rename
  | rename2 (flags padding : UInt32)

namespace RenameForm

def opcode : RenameForm → UInt32
  | .rename => 12
  | .rename2 .. => 45

def flags : RenameForm → UInt32
  | .rename => 0
  | .rename2 flags _ => flags

def fixed (newdir : UInt64) : RenameForm → Bytes
  | .rename => le64 newdir
  | .rename2 flags padding => le64 newdir ++ (le32 flags ++ le32 padding)

def encode (h : KernelHeader) (newdir : UInt64) (name newName : CStr) (form : RenameForm) : Bytes :=
  kernelMessage h form.opcode (form.fixed newdir ++ (name.toBytes ++ 0 :: (newName.toBytes ++ [0])))

/-- The request either form stands for. -/
def request (h : KernelHeader) (newdir : UInt64) (name newName : CStr) (form : RenameForm) :
    Request :=
  .rename
    { request := ⟨h.unique⟩
      parent := h.nodeid
      name := name.toBytes
      newParent := newdir
      newName := newName.toBytes
      flags := form.flags.toInt32 }

end RenameForm

/-- A message whose opcode is not known is answered with `ENOSYS` and forgotten. -/
theorem processRequest_unknown (h : KernelHeader) {opcode : UInt32}
    (unknown : Opcode.fromU32 opcode = none) {body : Bytes} (fuse : Fuse) (buf : Nat) (rest : Bytes)
    (host : Host) (heap : ArcHeap Bytes) (small : 40 + body.length < 2 ^ 32)
    (filled : heap.value buf = kernelMessage h opcode body ++ rest) (ready : fuse.initDone = true) :
    fuse.processRequest buf (kernelMessage h opcode body).length host heap =
      (.ok (), fuse, host.extend (enosys h.unique host.next), heap) := by
  rw [processRequest_serve fuse host filled (kernelMessage_accepted h opcode small) ready]
  have code : Opcode.fromU32 (h.inHeader opcode body.length).opcode = none := unknown
  unfold Fuse.serve
  rw [code]
  dsimp only
  rw [RequestGuard.drop_eq]
  rfl

/-- A rename is delivered exactly if it comes as RENAME2. -/
theorem rename_delivered_iff (h : KernelHeader) (newdir : UInt64) (name newName : CStr)
    (form : RenameForm) (fuse : Fuse) (buf : Nat) (rest : Bytes) (host : Host)
    (heap : ArcHeap Bytes) (fits : (form.encode h newdir name newName).length ≤ READ_BUF_SIZE)
    (filled : heap.value buf = form.encode h newdir name newName ++ rest)
    (ready : fuse.initDone = true) (on : fuse.ops.rename = true) :
    fuse.processRequest buf (form.encode h newdir name newName).length host heap =
        (.ok (), { fuse with pending := fuse.pending ++ [form.request h newdir name newName] },
          host, heap) ↔
      form.opcode = 45 := by
  cases form with
  | rename2 flags padding =>
      refine iff_of_true ?_ rfl
      exact processRequest_decodes h (.rename2 newdir flags padding name newName) fuse buf rest
        host heap fits
        filled ready on
  | rename =>
      refine iff_of_false ?_ (by decide)
      have small : 40 + (le64 newdir ++ (name.toBytes ++ 0 :: (newName.toBytes ++ [0]))).length <
          2 ^ 32 := by
        have bound : READ_BUF_SIZE < 2 ^ 32 := by decide
        rw [RenameForm.encode, kernelMessage_length] at fits
        exact Nat.lt_of_le_of_lt fits bound
      intro delivered
      have unserved :=
        processRequest_unknown h (by decide) fuse buf rest host heap small filled ready
      have queue := congrArg (fun out => out.2.1.pending.length) (unserved.symm.trans delivered)
      simp at queue

/-- The rename of `a` in the root to `b` in the directory 2. -/
def renameMessage (form : RenameForm) : Bytes :=
  form.encode lookupHeader 2 ⟨[97], by decide⟩ ⟨[98], by decide⟩

theorem rename_delivered_exchange :
    (World.mounted { rename := true } true (fun _ => .ok) 4096).fuse.processRequest 0
      (renameMessage (.rename2 2 0)).length
        (World.mounted { rename := true } true (fun _ => .ok) 4096).host
      ⟨fun _ => renameMessage (.rename2 2 0) ++ [], fun _ => 1, 1⟩ =
    (.ok (), { (World.mounted { rename := true } true (fun _ => .ok) 4096).fuse with
        pending := [.rename ⟨⟨7⟩, 1, [97], 2, [98], 2⟩] },
      (World.mounted { rename := true } true (fun _ => .ok) 4096).host,
      ⟨fun _ => renameMessage (.rename2 2 0) ++ [], fun _ => 1, 1⟩) :=
  (rename_delivered_iff lookupHeader 2 ⟨[97], by decide⟩ ⟨[98], by decide⟩ (.rename2 2 0)
    (World.mounted { rename := true } true (fun _ => .ok) 4096).fuse 0 []
    (World.mounted { rename := true } true (fun _ => .ok) 4096).host
    ⟨fun _ => renameMessage (.rename2 2 0) ++ [], fun _ => 1, 1⟩ (by decide) rfl rfl rfl).mpr rfl

/-- The same rename without flags comes as RENAME: nothing is queued and `ENOSYS` is sent. -/
theorem plain_rename_unserved :
    ((World.mounted { rename := true } true (fun _ => .ok) 4096).fuse.processRequest 0
      (renameMessage .rename).length
        (World.mounted { rename := true } true (fun _ => .ok) 4096).host
      ⟨fun _ => renameMessage .rename, fun _ => 1, 1⟩).2.1.pending = [] ∧
    ((World.mounted { rename := true } true (fun _ => .ok) 4096).fuse.processRequest 0
      (renameMessage .rename).length
        (World.mounted { rename := true } true (fun _ => .ok) 4096).host
      ⟨fun _ => renameMessage .rename, fun _ => 1, 1⟩).2.2.1.log =
        [replyAttempt 7 (-ENOSYS) [[]] 0 .ok] := by
  decide

end ProxmoxFuse
