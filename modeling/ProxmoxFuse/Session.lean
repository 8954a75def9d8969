import ProxmoxFuse.Requests

/-!
# The session

`session.rs` up to the stream: the enabled operations and their builder, INIT
negotiation, and `process_request`. The request guard is a local of
`process_request` until an arm moves it into a request or disarms it; what is
still live at an exit, early or not, is dropped there. `dispatch` returns that
bookkeeping in an `Exit`.
-/
namespace ProxmoxFuse

/-- Maximum write size negotiated with the kernel. -/
def MAX_WRITE : Nat := 256 * 1024

def READ_BUF_SIZE : Nat := MAX_WRITE + 4096

structure EnabledOps where
  lookup : Bool := false
  forget : Bool := false
  getattr : Bool := false
  setattr : Bool := false
  statfs : Bool := false
  readdir : Bool := false
  readdirplus : Bool := false
  mkdir : Bool := false
  create : Bool := false
  mknod : Bool := false
  «open» : Bool := false
  release : Bool := false
  read : Bool := false
  write : Bool := false
  unlink : Bool := false
  rmdir : Bool := false
  rename : Bool := false
  readlink : Bool := false
  listxattr : Bool := false
  getxattr : Bool := false
  deriving DecidableEq, Repr

structure FuseSessionBuilder where
  name : String
  options : List String
  ops : EnabledOps

namespace FuseSessionBuilder

def enableReaddir (self : FuseSessionBuilder) : FuseSessionBuilder :=
  { self with ops.readdir := true }

def enableReaddirplus (self : FuseSessionBuilder) : FuseSessionBuilder :=
  { self with ops.readdirplus := true }

def enableMkdir (self : FuseSessionBuilder) : FuseSessionBuilder :=
  { self with ops.mkdir := true }

def enableOpen (self : FuseSessionBuilder) : FuseSessionBuilder :=
  { self with ops := { self.ops with «open» := true, release := true } }

/-- Enable `Create`, `Open` and `Release` requests. -/
def enableCreate (self : FuseSessionBuilder) : FuseSessionBuilder :=
  enableOpen { self with ops.create := true }

def enableMknod (self : FuseSessionBuilder) : FuseSessionBuilder :=
  { self with ops.mknod := true }

def enableSetattr (self : FuseSessionBuilder) : FuseSessionBuilder :=
  { self with ops.setattr := true }

def enableStatfs (self : FuseSessionBuilder) : FuseSessionBuilder :=
  { self with ops.statfs := true }

def enableUnlink (self : FuseSessionBuilder) : FuseSessionBuilder :=
  { self with ops.unlink := true }

def enableRmdir (self : FuseSessionBuilder) : FuseSessionBuilder :=
  { self with ops.rmdir := true }

def enableRename (self : FuseSessionBuilder) : FuseSessionBuilder :=
  { self with ops.rename := true }

def enableRead (self : FuseSessionBuilder) : FuseSessionBuilder :=
  { self with ops.read := true }

def enableWrite (self : FuseSessionBuilder) : FuseSessionBuilder :=
  { self with ops.write := true }

def enableReadlink (self : FuseSessionBuilder) : FuseSessionBuilder :=
  { self with ops.readlink := true }

def enableReadXattr (self : FuseSessionBuilder) : FuseSessionBuilder :=
  { self with ops.listxattr := true, ops.getxattr := true }

end FuseSessionBuilder

/-- A tokio `JoinHandle`: whether its result was already handed out. -/
structure JoinHandle where
  taken : Bool
  deriving DecidableEq, Repr

/-- A mounted fuse file system. `buf` is the identity of the read buffer. -/
structure Fuse where
  ops : EnabledOps
  buf : Nat
  pending : List Request
  initDone : Bool
  finished : Bool
  errWatcher : JoinHandle

def Fuse.builder (name : String) : FuseSessionBuilder where
  name := name
  options := []
  ops := { lookup := true, forget := true, getattr := true }

/-- Build a `FuseInitOut` reply from the kernel's `FuseInitIn` and our enabled operations. -/
def negotiateInit (initIn : FuseInitIn) (ops : EnabledOps) (pageSize : Int64) : FuseInitOut :=
  let minor := min initIn.minor FUSE_KERNEL_MINOR_VERSION
  let flags := ((InitFlags.ASYNC_READ.union InitFlags.BIG_WRITES).union
    InitFlags.ATOMIC_O_TRUNC).union InitFlags.NO_OPENDIR_SUPPORT
  let flags := if ops.readdirplus then
    flags.union (InitFlags.DO_READDIRPLUS.union InitFlags.READDIRPLUS_AUTO) else flags
  let flags := if !ops.open then flags.union InitFlags.NO_OPEN_SUPPORT else flags
  let kernelFlags : InitFlags := BitFlags.fromBitsTruncate initIn.flags
  let (flags, maxPages) :=
    if kernelFlags.contains InitFlags.MAX_PAGES then
      if pageSize > 0 then
        (flags.union InitFlags.MAX_PAGES, UInt16.ofNat (MAX_WRITE / pageSize.toUInt64.toNat))
      else (flags, 0)
    else (flags, 0)
  { major := FUSE_KERNEL_VERSION
    minor
    maxReadahead := initIn.maxReadahead
    flags := (flags.inter kernelFlags).bits
    maxBackground := 0
    congestionThreshold := 0
    maxWrite := UInt32.ofNat MAX_WRITE
    timeGran := 1
    maxPages
    mapAlignment := 0
    flags2 := 0
    maxStackDepth := 0
    requestTimeout := 0
    unused := List.Vector.replicate 11 0 }

/-- The INIT phase: anything but a version 7 FUSE_INIT is an error. -/
def Fuse.handleInit (self : Fuse) (header : FuseInHeader) (body : Bytes) (host : Host) :
    Except Fault Unit × Fuse × Host :=
  let opcode := header.opcode
  if Opcode.fromU32 opcode ≠ some .init then
    (.error (.io (.other s!"expected FUSE_INIT, got opcode {opcode}")), self, host)
  else
    match readBody FuseInitIn body with
    | .error e => (.error e, self, host)
    | .ok initIn =>
        let major := initIn.major
        if major ≠ FUSE_KERNEL_VERSION then
          (.error (.io (.other
            s!"unsupported FUSE protocol major version: {major} (expected {FUSE_KERNEL_VERSION})")),
            self, host)
        else
          let initOut := negotiateInit initIn self.ops host.pageSize
          match sendReply header.unique 0 (Packed.bytes initOut) host with
          | (.error e, host) => (.error (.io e), self, host)
          | (.ok (), host) => (.ok (), { self with initDone := true }, host)

/-- The length checks in front of the dispatch; the body is what follows the header. -/
def checkHeader (contents : Bytes) (nbytes : Nat) : Except Fault (FuseInHeader × Bytes) :=
  if nbytes < Packed.size FuseInHeader then .error (.io (.other "short read from /dev/fuse"))
  else do
    let message ← sliceTo contents nbytes
    let header ← readBody FuseInHeader message
    let len := header.len
    if len.toNat ≠ nbytes then
      .error (.io (.other s!"FUSE header.len ({len}) does not match read size ({nbytes})"))
    else
      let body ← sliceFrom message (Packed.size FuseInHeader)
      return (header, body)

/-- How `process_request` is left: its result, the guard if it is still a live
local, the requests queued on the way, whether `finished` was set, and the
buffers after any clone. -/
structure Exit where
  result : Except Fault Unit
  guard : Option RequestGuard
  pushed : List Request
  finished : Bool
  heap : ArcHeap Bytes

/-- An arm whose fallible steps all come before its push: `?` leaves the guard
behind, success moves it into the request. -/
def queueOne (guard : RequestGuard) (heap : ArcHeap Bytes)
    (built : Except Fault (Request × ArcHeap Bytes)) : Exit :=
  match built with
  | .error e => { result := .error e, guard := some guard, pushed := [], finished := false, heap }
  | .ok (request, heap) =>
      { result := .ok (), guard := none, pushed := [request], finished := false, heap }

/-- An arm that leaves the guard to answer `ENOSYS`. -/
def unserved (guard : RequestGuard) (heap : ArcHeap Bytes) : Exit :=
  { result := .ok (), guard := some guard, pushed := [], finished := false, heap }

/-- The loop over the entries of a batch, from entry `i` on. -/
def batchForgets (body : Bytes) (i : Nat) : Nat → List Request → Except Fault Unit × List Request
  | 0, pushed => (.ok (), pushed)
  | n+1, pushed =>
      let off := Packed.size FuseBatchForgetIn + i * Packed.size FuseForgetOne
      if off + Packed.size FuseForgetOne > body.length then (.ok (), pushed)
      else
        match (do let rest ← sliceFrom body off; readBody FuseForgetOne rest) with
        | .error e => (.error e, pushed)
        | .ok entry =>
            let request : Forget :=
              { request := RequestGuard.new 0, inode := entry.nodeid, count := entry.nlookup }
            batchForgets body (i + 1) n (pushed ++ [.forget request])

/-- The match on the opcode. A guarded arm whose operation is disabled falls through. -/
def dispatch (ops : EnabledOps) (header : FuseInHeader) (body : Bytes) (buf nbytes : Nat)
    (guard : RequestGuard) (heap : ArcHeap Bytes) : Opcode → Exit
  | .destroy => { result := .ok (), guard := none, pushed := [], finished := true, heap }
  | .interrupt => unserved guard heap
  | .lookup =>
      if ops.lookup then queueOne guard heap do
        return (.lookup
          { request := guard, parent := header.nodeid, fileName := nameFromBytes body }, heap)
      else unserved guard heap
  | .forget =>
      match readBody FuseForgetIn body with
      | .error e =>
          { result := .error e, guard := some guard, pushed := [], finished := false, heap }
      | .ok forgetIn =>
          if ops.forget then queueOne guard heap do
            return (.forget
              { request := guard, inode := header.nodeid, count := forgetIn.nlookup }, heap)
          else { result := .ok (), guard := none, pushed := [], finished := false, heap }
  | .batchForget =>
      if ops.forget then
        match readBody FuseBatchForgetIn body with
        | .error e => { result := .error e, guard := none, pushed := [], finished := false, heap }
        | .ok batchIn =>
            let (result, pushed) := batchForgets body 0 batchIn.count.toNat []
            { result, guard := none, pushed, finished := false, heap }
      else { result := .ok (), guard := none, pushed := [], finished := false, heap }
  | .getattr =>
      if ops.getattr then queueOne guard heap do
        return (.getattr { request := guard, inode := header.nodeid }, heap)
      else unserved guard heap
  | .setattr =>
      if ops.setattr then queueOne guard heap do
        let setattrIn ← readBody FuseSetattrIn body
        let valid : FattrFlags := BitFlags.fromBitsTruncate setattrIn.valid
        let fh := if valid.contains FattrFlags.FH then some setattrIn.fh else none
        return (.setattr
          { request := guard, inode := header.nodeid, toSet := valid, stat := setattrIn.toStat,
            fh }, heap)
      else unserved guard heap
  | .statfs =>
      if ops.statfs then queueOne guard heap do
        return (.statfs { request := guard, inode := header.nodeid }, heap)
      else unserved guard heap
  | .readlink =>
      if ops.readlink then queueOne guard heap do
        return (.readlink { request := guard, inode := header.nodeid }, heap)
      else unserved guard heap
  | .mknod =>
      if ops.mknod then queueOne guard heap do
        let mknodIn ← readBody FuseMknodIn body
        let fileName ← nameAfter FuseMknodIn body
        return (.mknod
          { request := guard, parent := header.nodeid, fileName, mode := mknodIn.mode
            dev := mknodIn.rdev.toUInt64 }, heap)
      else unserved guard heap
  | .mkdir =>
      if ops.mkdir then queueOne guard heap do
        let mkdirIn ← readBody FuseMkdirIn body
        let dirName ← nameAfter FuseMkdirIn body
        return (.mkdir
          { request := guard, parent := header.nodeid, dirName, mode := mkdirIn.mode }, heap)
      else unserved guard heap
  | .unlink =>
      if ops.unlink then queueOne guard heap do
        return (.unlink
          { request := guard, parent := header.nodeid, fileName := nameFromBytes body }, heap)
      else unserved guard heap
  | .rmdir =>
      if ops.rmdir then queueOne guard heap do
        return (.rmdir
          { request := guard, parent := header.nodeid, dirName := nameFromBytes body }, heap)
      else unserved guard heap
  | .rename2 =>
      if ops.rename then queueOne guard heap do
        let renameIn ← readBody FuseRename2In body
        let (name, newName) ← twoNamesAfter FuseRename2In body
        return (.rename
          { request := guard, parent := header.nodeid, name, newParent := renameIn.newdir, newName
            flags := renameIn.flags.toInt32 }, heap)
      else unserved guard heap
  | .open =>
      if ops.open then queueOne guard heap do
        let openIn ← readBody FuseOpenIn body
        return (.open
          { request := guard, inode := header.nodeid, flags := openIn.flags.toInt32,
            fileInfo := {} }, heap)
      else unserved guard heap
  | .release =>
      if ops.release then queueOne guard heap do
        let releaseIn ← readBody FuseReleaseIn body
        return (.release
          { request := guard, inode := header.nodeid, fh := releaseIn.fh
            flags := releaseIn.flags.toInt32 }, heap)
      else unserved guard heap
  | .read =>
      if ops.read then queueOne guard heap do
        let readIn ← readBody FuseReadIn body
        return (.read
          { request := guard, inode := header.nodeid, fh := readIn.fh, size := readIn.size.toNat
            offset := readIn.offset }, heap)
      else unserved guard heap
  | .write =>
      if ops.write then queueOne guard heap do
        let writeIn ← readBody FuseWriteIn body
        let dataOffset := Packed.size FuseInHeader + Packed.size FuseWriteIn
        let size := writeIn.size.toNat
        if dataOffset + size ≥ 2 ^ 64 then .error (.io (.other "FUSE write size overflows"))
        else if dataOffset + size > nbytes then
          .error (.io (.other
            s!"FUSE write claims {size} data bytes but message is only {nbytes} bytes"))
        else
          return (.write
            { request := guard, inode := header.nodeid, fh := writeIn.fh, dataOffset, size
              offset := writeIn.offset, buffer := buf }, heap.retain buf)
      else unserved guard heap
  | .create =>
      if ops.create then queueOne guard heap do
        let createIn ← readBody FuseCreateIn body
        let fileName ← nameAfter FuseCreateIn body
        return (.create
          { request := guard, parent := header.nodeid, fileName, mode := createIn.mode
            fileInfo := {} }, heap)
      else unserved guard heap
  | .readdir =>
      if ops.readdir then queueOne guard heap do
        let readIn ← readBody FuseReadIn body
        return (.readdir (ReaddirCommon.new guard header.nodeid readIn.size.toNat readIn.offset),
          heap)
      else unserved guard heap
  | .readdirplus =>
      if ops.readdirplus then queueOne guard heap do
        let readIn ← readBody FuseReadIn body
        return (.readdirPlus (ReaddirCommon.new guard header.nodeid readIn.size.toNat
          readIn.offset), heap)
      else unserved guard heap
  | .listxattr =>
      if ops.listxattr then queueOne guard heap do
        let getxattrIn ← readBody FuseGetxattrIn body
        if getxattrIn.size = 0 then
          return (.listXAttrSize { request := guard, inode := header.nodeid }, heap)
        else
          return (.listXAttr (ListXAttr.new guard header.nodeid getxattrIn.size.toNat), heap)
      else unserved guard heap
  | .getxattr =>
      if ops.getxattr then queueOne guard heap do
        let getxattrIn ← readBody FuseGetxattrIn body
        let attrName ← nameAfter FuseGetxattrIn body
        if getxattrIn.size = 0 then
          return (.getXAttrSize { request := guard, inode := header.nodeid, attrName }, heap)
        else
          return (.getXAttr
            { request := guard, inode := header.nodeid, attrName, size := getxattrIn.size.toNat },
              heap)
      else unserved guard heap
  | .init => unserved guard heap

/-- The end of the scope a guard may still be live in. -/
def dropLive : Option RequestGuard → Host → Host
  | none, host => host
  | some guard, host => guard.drop host

/-- The part of `process_request` after INIT, from the creation of the guard on. -/
def Fuse.serve (self : Fuse) (header : FuseInHeader) (body : Bytes) (buf nbytes : Nat) (host : Host)
    (heap : ArcHeap Bytes) : Except Fault Unit × Fuse × Host × ArcHeap Bytes :=
  let guard := RequestGuard.new header.unique
  match Opcode.fromU32 header.opcode with
  | none => (.ok (), self, guard.drop host, heap)
  | some opcode =>
      let exit := dispatch self.ops header body buf nbytes guard heap opcode
      (exit.result,
        { self with
          pending := self.pending ++ exit.pushed
          finished := self.finished || exit.finished },
        dropLive exit.guard host, exit.heap)

/-- Process one request from the buffer `buf`, of which `nbytes` bytes were read. -/
def Fuse.processRequest (self : Fuse) (buf nbytes : Nat) (host : Host) (heap : ArcHeap Bytes) :
    Except Fault Unit × Fuse × Host × ArcHeap Bytes :=
  match checkHeader (heap.value buf) nbytes with
  | .error e => (.error e, self, host, heap)
  | .ok (header, body) =>
      if !self.initDone then
        let (result, self, host) := self.handleInit header body host
        (result, self, host, heap)
      else self.serve header body buf nbytes host heap

end ProxmoxFuse
