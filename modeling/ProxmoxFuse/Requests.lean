import ProxmoxFuse.ArcHeap
import ProxmoxFuse.Reply
import ProxmoxFuse.SignedWords

/-!
# Request types

The request types of `requests.rs` and their methods. A method that takes
`self` by value ends with the drops Rust inserts for what it did not move out;
`Request.drop` is the plain drop of a request nobody replied to.
-/
namespace ProxmoxFuse

structure Lookup where
  request : RequestGuard
  parent : UInt64
  fileName : OsStr

structure Forget where
  request : RequestGuard
  inode : UInt64
  count : UInt64

structure Getattr where
  request : RequestGuard
  inode : UInt64

structure Setattr where
  request : RequestGuard
  inode : UInt64
  fh : Option UInt64
  toSet : FattrFlags
  stat : Stat

structure Statfs where
  request : RequestGuard
  inode : UInt64

/-- The structure `impl_readdir_common!` declares for both directory requests. -/
structure ReaddirCommon where
  request : Option RequestGuard
  inode : UInt64
  offset : UInt64
  replyBuffer : Option ReplyBuf

abbrev Readdir := ReaddirCommon

abbrev ReaddirPlus := ReaddirCommon

structure Mkdir where
  request : RequestGuard
  parent : UInt64
  dirName : OsStr
  mode : UInt32

structure Create where
  request : RequestGuard
  parent : UInt64
  fileName : OsStr
  mode : UInt32
  fileInfo : FuseFileInfo

structure Mknod where
  request : RequestGuard
  parent : UInt64
  fileName : OsStr
  mode : UInt32
  dev : UInt64

structure Open where
  request : RequestGuard
  inode : UInt64
  flags : Int32
  fileInfo : FuseFileInfo

structure Release where
  request : RequestGuard
  inode : UInt64
  fh : UInt64
  flags : Int32

structure Read where
  request : RequestGuard
  inode : UInt64
  fh : UInt64
  size : Nat
  offset : UInt64

structure Unlink where
  request : RequestGuard
  parent : UInt64
  fileName : OsStr

structure Rmdir where
  request : RequestGuard
  parent : UInt64
  dirName : OsStr

structure Rename where
  request : RequestGuard
  parent : UInt64
  name : OsStr
  newParent : UInt64
  newName : OsStr
  flags : Int32

/-- `buffer` is the identity of the `Arc` the data is borrowed from. -/
structure Write where
  request : RequestGuard
  inode : UInt64
  fh : UInt64
  dataOffset : Nat
  size : Nat
  offset : UInt64
  buffer : Nat

structure Readlink where
  request : RequestGuard
  inode : UInt64

structure ListXAttrSize where
  request : RequestGuard
  inode : UInt64

structure ListXAttr where
  request : RequestGuard
  inode : UInt64
  size : Nat
  response : Bytes

structure GetXAttrSize where
  request : RequestGuard
  inode : UInt64
  attrName : OsStr

structure GetXAttr where
  request : RequestGuard
  inode : UInt64
  attrName : OsStr
  size : Nat

inductive Request where
  | lookup (r : Lookup)
  | forget (r : Forget)
  | getattr (r : Getattr)
  | setattr (r : Setattr)
  | statfs (r : Statfs)
  | readdir (r : Readdir)
  | readdirPlus (r : ReaddirPlus)
  | mkdir (r : Mkdir)
  | create (r : Create)
  | mknod (r : Mknod)
  | open (r : Open)
  | release (r : Release)
  | read (r : Read)
  | unlink (r : Unlink)
  | rmdir (r : Rmdir)
  | write (r : Write)
  | readlink (r : Readlink)
  | rename (r : Rename)
  | listXAttrSize (r : ListXAttrSize)
  | listXAttr (r : ListXAttr)
  | getXAttrSize (r : GetXAttrSize)
  | getXAttr (r : GetXAttr)

/-! ### Methods that keep the request -/

/-- `name_to_cstring`. -/
def nameToCstring (name : OsStr) : Except IoError CStr :=
  match CStr.new name with
  | some c => .ok c
  | none => .error (.other "tried to reply with invalid file name")

def ReaddirCommon.new (request : RequestGuard) (inode : UInt64) (size : Nat) (offset : UInt64) :
    ReaddirCommon where
  request := some request
  inode := inode
  offset := offset
  replyBuffer := some (ReplyBuf.new size)

/-- `self.reply_buffer.as_mut().unwrap()` followed by one call on the buffer. -/
def ReaddirCommon.withBuffer (self : ReaddirCommon) (add : ReplyBuf → ReplyBufState × ReplyBuf) :
    Except Fault ReplyBufState × ReaddirCommon :=
  match self.replyBuffer with
  | none => (.error .panic, self)
  | some buf => (.ok (add buf).1, { self with replyBuffer := some (add buf).2 })

def Readdir.addEntry (self : Readdir) (name : OsStr) (stat : Stat) (next : UInt64) :
    Except Fault ReplyBufState × Readdir :=
  match nameToCstring name with
  | .error e => (.error (.io e), self)
  | .ok name => ReaddirCommon.withBuffer self (·.addReaddir name stat next)

def ReaddirPlus.addEntry {τ : Type} [Timeout τ] (self : ReaddirPlus) (name : OsStr) (stat : Stat)
    (next generation : UInt64) (attrTimeout entryTimeout : τ) :
    Except Fault ReplyBufState × ReaddirPlus :=
  match nameToCstring name with
  | .error e => (.error (.io e), self)
  | .ok name =>
      let entry : EntryParam τ :=
        { inode := stat.stIno, generation, attr := stat, attrTimeout, entryTimeout }
      ReaddirCommon.withBuffer self (·.addReaddirPlus name entry next)

namespace ListXAttr

def new (request : RequestGuard) (inode : UInt64) (size : Nat) : ListXAttr :=
  { request, inode, size, response := [] }

/-- `len` must already include the terminating zero. -/
def checkAdd (self : ListXAttr) (len : Nat) : Bool := self.response.length + len ≤ self.size

def addBytesWithoutZero (self : ListXAttr) (name : Bytes) : ReplyBufState × ListXAttr :=
  if !self.checkAdd (name.length + 1) then (.full, self)
  else (.ok, { self with response := self.response ++ name ++ [0] })

def addBytesWithZero (self : ListXAttr) (name : Bytes) : ReplyBufState × ListXAttr :=
  if !self.checkAdd name.length then (.full, self)
  else (.ok, { self with response := self.response ++ name })

def add (self : ListXAttr) (name : OsStr) : ReplyBufState × ListXAttr :=
  self.addBytesWithoutZero name

def addCString (self : ListXAttr) (name : CStr) : ReplyBufState × ListXAttr :=
  self.addBytesWithZero name.toBytesWithNul

/-- Data that is too large is returned as an error. -/
def setRawReply (self : ListXAttr) (data : Bytes) : Except Bytes Unit × ListXAttr :=
  if data.length > self.size then (.error data, self)
  else (.ok (), { self with response := data })

end ListXAttr

/-! ### What a `Setattr` asks for -/

/-- `std::time::Duration`. `Duration::new` keeps nanoseconds below a second as they are. -/
structure Duration where
  secs : UInt64
  nanos : UInt32
  subsecond : nanos.toNat < 1000000000
  deriving DecidableEq

inductive SetTime where
  | now
  | time (sinceEpoch : Duration)
  deriving DecidableEq

/-- Clamped nanoseconds keep their value in the narrow word. -/
theorem clamp_nanos (nsecs : Int64) :
    (SignedWords.clamp nsecs 0 999999999).toUInt64.toUInt32.toNat =
      (min (max nsecs.toInt 0) 999999999).toNat := by
  have value : (SignedWords.clamp nsecs 0 999999999).toInt = min (max nsecs.toInt 0) 999999999 :=
    SignedWords.toInt_clamp nsecs (by decide)
  rw [SignedWords.toNat_narrow (by omega) (by omega), value]

theorem clamp_subsecond (nsecs : Int64) :
    (SignedWords.clamp nsecs 0 999999999).toUInt64.toUInt32.toNat < 1000000000 := by
  rw [clamp_nanos]
  omega

/-- Nanoseconds are clamped to their valid range and seconds before the epoch to zero. -/
def durationFromC (secs nsecs : Int64) : Duration where
  secs := (max secs 0).toUInt64
  nanos := (SignedWords.clamp nsecs 0 999999999).toUInt64.toUInt32
  subsecond := clamp_subsecond nsecs

/-- `bool::then_some`. -/
def thenSome {α : Type} (set : Bool) (value : α) : Option α := if set then some value else none

namespace Setattr

def mode (self : Setattr) : Option UInt32 :=
  thenSome (self.toSet.contains FattrFlags.MODE) self.stat.stMode

def uid (self : Setattr) : Option UInt32 :=
  thenSome (self.toSet.contains FattrFlags.UID) self.stat.stUid

def gid (self : Setattr) : Option UInt32 :=
  thenSome (self.toSet.contains FattrFlags.GID) self.stat.stGid

def size (self : Setattr) : Option UInt64 :=
  thenSome (self.toSet.contains FattrFlags.SIZE) self.stat.stSize.toUInt64

/-- The body of `atime` and `mtime`: a time that is given comes before "now". -/
def setTime (toSet given now : FattrFlags) (secs nsecs : Int64) : Option SetTime :=
  if toSet.contains given then some (.time (durationFromC secs nsecs))
  else if toSet.contains now then some .now
  else none

def atime (self : Setattr) : Option SetTime :=
  setTime self.toSet FattrFlags.ATIME FattrFlags.ATIME_NOW self.stat.stAtime self.stat.stAtimeNsec

def mtime (self : Setattr) : Option SetTime :=
  setTime self.toSet FattrFlags.MTIME FattrFlags.MTIME_NOW self.stat.stMtime self.stat.stMtimeNsec

def ctime (self : Setattr) : Option Duration :=
  thenSome (self.toSet.contains FattrFlags.CTIME)
    (durationFromC self.stat.stCtime self.stat.stCtimeNsec)

end Setattr

/-- `&self.buffer[self.data_offset..self.data_offset + self.size]`. -/
def Write.data (self : Write) (heap : ArcHeap Bytes) : Except Fault Bytes := do
  let upTo ← sliceTo (heap.value self.buffer) (self.dataOffset + self.size)
  sliceFrom upTo self.dataOffset

/-! ### Drops -/

/-- `Drop for Forget` clears the sentinel before the guard itself is dropped. -/
def Forget.drop (self : Forget) (host : Host) : Host :=
  RequestGuard.drop { self.request with unique := 0 } host

/-- `Drop` of both directory requests, then of the guard that may be left in them.
The `unwrap` on a missing guard panics before anything is written. -/
def ReaddirCommon.drop (self : ReaddirCommon) (host : Host) : Host :=
  match self.replyBuffer, self.request with
  | some _, some request => (replyErr request EIO host).2
  | some _, none => host
  | none, some request => request.drop host
  | none, none => host

/-- What Rust does when a request goes out of scope. -/
def Request.drop : Request → Host → Host
  | .lookup r => r.request.drop
  | .forget r => r.drop
  | .getattr r => r.request.drop
  | .setattr r => r.request.drop
  | .statfs r => r.request.drop
  | .readdir r => r.drop
  | .readdirPlus r => r.drop
  | .mkdir r => r.request.drop
  | .create r => r.request.drop
  | .mknod r => r.request.drop
  | .open r => r.request.drop
  | .release r => r.request.drop
  | .read r => r.request.drop
  | .unlink r => r.request.drop
  | .rmdir r => r.request.drop
  | .write r => r.request.drop
  | .readlink r => r.request.drop
  | .rename r => r.request.drop
  | .listXAttrSize r => r.request.drop
  | .listXAttr r => r.request.drop
  | .getXAttrSize r => r.request.drop
  | .getXAttr r => r.request.drop

/-! ### `FuseRequest` -/

/-- `impl_fuse_request!`: the `fail` of every type that stores its guard in a `request` field. -/
def failRequest (request : RequestGuard) (errno : Int32) (host : Host) : Except Fault Unit × Host :=
  let (result, host) := replyErr request errno host
  (result.mapError .io, host)

/-- Forget cannot fail. -/
def Forget.fail (self : Forget) (_errno : Int32) (host : Host) : Except Fault Unit × Host :=
  (.ok (), self.drop host)

/-- The buffer is given up first, so that the drop at the end stays silent. -/
def ReaddirCommon.fail (self : ReaddirCommon) (errno : Int32) (host : Host) :
    Except Fault Unit × Host :=
  match self.request with
  | none => (.error .panic, host)
  | some request => failRequest request errno host

/-- `impl FuseRequest for Request`, which forwards to the variants. -/
def Request.fail : Request → Int32 → Host → Except Fault Unit × Host
  | .forget r => r.fail
  | .readdir r => ReaddirCommon.fail r
  | .readdirPlus r => ReaddirCommon.fail r
  | .lookup r => failRequest r.request
  | .getattr r => failRequest r.request
  | .setattr r => failRequest r.request
  | .statfs r => failRequest r.request
  | .mkdir r => failRequest r.request
  | .create r => failRequest r.request
  | .mknod r => failRequest r.request
  | .open r => failRequest r.request
  | .release r => failRequest r.request
  | .read r => failRequest r.request
  | .unlink r => failRequest r.request
  | .rmdir r => failRequest r.request
  | .write r => failRequest r.request
  | .readlink r => failRequest r.request
  | .rename r => failRequest r.request
  | .listXAttrSize r => failRequest r.request
  | .listXAttr r => failRequest r.request
  | .getXAttrSize r => failRequest r.request
  | .getXAttr r => failRequest r.request

/-- Convenience method to use an `io::Error` as a response. -/
def Request.ioFail (self : Request) (error : IoError) (host : Host) : Except Fault Unit × Host :=
  self.fail (error.rawOsError.getD EIO) host

/-! ### Replies -/

section replies
variable {τ : Type} [Timeout τ]

def Lookup.reply (self : Lookup) (entry : EntryParam τ) (host : Host) :
    Except ReplyError Unit × Host :=
  dropGuard (replyOkCancellable self.request (Packed.bytes (entryOutFromParam entry)) host)

/-- FUSE_FORGET sends no kernel reply — Drop handles disarming. -/
def Forget.reply (self : Forget) (host : Host) : Host := self.drop host

def Getattr.reply (self : Getattr) (stat : Stat) (timeout : τ) (host : Host) :
    Except IoError Unit × Host :=
  dropGuard (replyAttr self.request stat timeout host)

def Setattr.reply (self : Setattr) (stat : Stat) (timeout : τ) (host : Host) :
    Except IoError Unit × Host :=
  dropGuard (replyAttr self.request stat timeout host)

def Statfs.reply (self : Statfs) (stbuf : Statvfs) (host : Host) : Except IoError Unit × Host :=
  dropGuard (replyOk self.request (Packed.bytes (FuseKstatfs.fromStatvfs stbuf)) host)

/-- Guard and buffer are taken out, so that only the guard's own drop remains. -/
def ReaddirCommon.reply (self : ReaddirCommon) (host : Host) : Except Fault Unit × Host :=
  match self.request, self.replyBuffer with
  | some request, some buf =>
      let (result, host) := dropGuard (replyOk request buf.filledData host)
      (result.mapError .io, host)
  | some request, none => (.error .panic, request.drop host)
  | none, _ => (.error .panic, host)

def Mkdir.reply (self : Mkdir) (entry : EntryParam τ) (host : Host) : Except IoError Unit × Host :=
  dropGuard (replyEntry self.request entry host)

/-- The guard is disarmed before the reply is sent. -/
def Create.reply (self : Create) (entry : EntryParam τ) (fh : UInt64) (host : Host) :
    Except ReplyError Unit × Host :=
  let entryOut := entryOutFromParam entry
  let openOut : FuseOpenOut := { fh, openFlags := self.fileInfo.openFlagsOut.bits, backingId := 0 }
  let dataLen := Packed.size FuseEntryOut + Packed.size FuseOpenOut
  let unique := self.request.unique
  let host := self.request.disarm host
  let (sent, host) :=
    sendReplyVectored unique [Packed.bytes entryOut, Packed.bytes openOut] dataLen host
  (cancellable sent, host)

def Mknod.reply (self : Mknod) (entry : EntryParam τ) (host : Host) : Except IoError Unit × Host :=
  dropGuard (replyEntry self.request entry host)

def Open.reply (self : Open) (fh : UInt64) (host : Host) : Except ReplyError Unit × Host :=
  let openOut : FuseOpenOut := { fh, openFlags := self.fileInfo.openFlagsOut.bits, backingId := 0 }
  dropGuard (replyOkCancellable self.request (Packed.bytes openOut) host)

def Release.reply (self : Release) (host : Host) : Except IoError Unit × Host :=
  dropGuard (replyOk self.request [] host)

def Read.reply (self : Read) (data : Bytes) (host : Host) : Except IoError Unit × Host :=
  let len := data.length
  let size := self.size
  if len > size then
    (.error (.other s!"Read reply ({len} bytes) exceeds requested size ({size} bytes)"),
      self.request.drop host)
  else dropGuard (replyOk self.request data host)

/-- The total as released. -/
def sliceTotal (data : List Bytes) : Nat := (data.map List.length).sum % 2 ^ 64

/-- As in `Create::reply`, the guard is disarmed before the reply is sent. -/
def Read.replyVectored (self : Read) (data : List Bytes) (host : Host) :
    Except IoError Unit × Host :=
  let total := sliceTotal data
  let size := self.size
  if total > size then
    (.error (.other s!"Read reply_vectored ({total} bytes) exceeds requested size ({size} bytes)"),
      self.request.drop host)
  else
    let unique := self.request.unique
    let host := self.request.disarm host
    sendReplyVectored unique data total host

def Unlink.reply (self : Unlink) (host : Host) : Except IoError Unit × Host :=
  dropGuard (replyOk self.request [] host)

def Rmdir.reply (self : Rmdir) (host : Host) : Except IoError Unit × Host :=
  dropGuard (replyOk self.request [] host)

def Rename.reply (self : Rename) (host : Host) : Except IoError Unit × Host :=
  dropGuard (replyOk self.request [] host)

def Write.reply (self : Write) (size : Nat) (host : Host) : Except IoError Unit × Host :=
  let limit := self.size
  if size > limit then
    (.error (.other s!"write reply size ({size}) exceeds original write size ({limit})"),
      self.request.drop host)
  else if size < 2 ^ 32 then
    let writeOut : FuseWriteOut := { size := UInt32.ofNat size, padding := 0 }
    dropGuard (replyOk self.request (Packed.bytes writeOut) host)
  else (.error (.other "write size exceeds u32::MAX"), self.request.drop host)

def Readlink.cReply (self : Readlink) (data : CStr) (host : Host) : Except IoError Unit × Host :=
  dropGuard (replyOk self.request data.toBytes host)

def Readlink.reply (self : Readlink) (data : OsStr) (host : Host) : Except IoError Unit × Host :=
  match CStr.new data with
  | none => (.error (.other "tried to reply with invalid link"), self.request.drop host)
  | some data => self.cReply data host

def ListXAttrSize.reply (self : ListXAttrSize) (size : Nat) (host : Host) :
    Except IoError Unit × Host :=
  dropGuard (replyXattrSize self.request size host)

/-- Reply with the standard error for a too-small size. -/
def ListXAttr.failFull (self : ListXAttr) (host : Host) : Except IoError Unit × Host :=
  replyErr self.request ERANGE host

def ListXAttr.reply (self : ListXAttr) (host : Host) : Except IoError Unit × Host :=
  dropGuard (replyOk self.request self.response host)

def ListXAttr.replyRaw (self : ListXAttr) (data : Bytes) (host : Host) :
    Except IoError Unit × Host :=
  if data.length > self.size then self.failFull host
  else dropGuard (replyOk self.request data host)

def GetXAttrSize.reply (self : GetXAttrSize) (size : Nat) (host : Host) :
    Except IoError Unit × Host :=
  dropGuard (replyXattrSize self.request size host)

def GetXAttr.reply (self : GetXAttr) (data : Bytes) (host : Host) : Except IoError Unit × Host :=
  if data.length > self.size then replyErr self.request ERANGE host
  else dropGuard (replyOk self.request data host)

end replies

/-! ### The consumer's side of a request -/

/-- A call of the public API that keeps the request. -/
inductive Call (τ : Type) : Request → Type where
  | readdirAdd (r : Readdir) (name : OsStr) (stat : Stat) (next : UInt64) : Call τ (.readdir r)
  | readdirPlusAdd (r : ReaddirPlus) (name : OsStr) (stat : Stat) (next generation : UInt64)
      (attrTimeout entryTimeout : τ) : Call τ (.readdirPlus r)
  | createInfo (r : Create) (info : FuseFileInfo) : Call τ (.create r)
  | openInfo (r : Open) (info : FuseFileInfo) : Call τ (.open r)
  | add (r : ListXAttr) (name : OsStr) : Call τ (.listXAttr r)
  | addBytesWithoutZero (r : ListXAttr) (name : Bytes) : Call τ (.listXAttr r)
  | addBytesWithZero (r : ListXAttr) (name : Bytes) : Call τ (.listXAttr r)
  | addCString (r : ListXAttr) (name : CStr) : Call τ (.listXAttr r)
  | setRawReply (r : ListXAttr) (data : Bytes) : Call τ (.listXAttr r)

def Call.after {τ : Type} [Timeout τ] : {r : Request} → Call τ r → Request
  | _, .readdirAdd r name stat next => .readdir (Readdir.addEntry r name stat next).2
  | _, .readdirPlusAdd r name stat next generation attrTimeout entryTimeout =>
      .readdirPlus (ReaddirPlus.addEntry r name stat next generation attrTimeout entryTimeout).2
  | _, .createInfo r info => .create { r with fileInfo := info }
  | _, .openInfo r info => .open { r with fileInfo := info }
  | _, .add r name => .listXAttr (r.add name).2
  | _, .addBytesWithoutZero r name => .listXAttr (r.addBytesWithoutZero name).2
  | _, .addBytesWithZero r name => .listXAttr (r.addBytesWithZero name).2
  | _, .addCString r name => .listXAttr (r.addCString name).2
  | _, .setRawReply r data => .listXAttr (r.setRawReply data).2

/-- A way of giving a request up: one reply method, `fail`, `io_fail`, or a plain drop. -/
inductive Consume (τ : Type) : Request → Type where
  | drop (r : Request) : Consume τ r
  | fail (r : Request) (errno : Int32) : Consume τ r
  | ioFail (r : Request) (error : IoError) : Consume τ r
  | lookup (r : Lookup) (entry : EntryParam τ) : Consume τ (.lookup r)
  | forget (r : Forget) : Consume τ (.forget r)
  | getattr (r : Getattr) (stat : Stat) (timeout : τ) : Consume τ (.getattr r)
  | setattr (r : Setattr) (stat : Stat) (timeout : τ) : Consume τ (.setattr r)
  | statfs (r : Statfs) (stbuf : Statvfs) : Consume τ (.statfs r)
  | readdir (r : Readdir) : Consume τ (.readdir r)
  | readdirPlus (r : ReaddirPlus) : Consume τ (.readdirPlus r)
  | mkdir (r : Mkdir) (entry : EntryParam τ) : Consume τ (.mkdir r)
  | create (r : Create) (entry : EntryParam τ) (fh : UInt64) : Consume τ (.create r)
  | mknod (r : Mknod) (entry : EntryParam τ) : Consume τ (.mknod r)
  | open (r : Open) (fh : UInt64) : Consume τ (.open r)
  | release (r : Release) : Consume τ (.release r)
  | read (r : Read) (data : Bytes) : Consume τ (.read r)
  | readVectored (r : Read) (data : List Bytes) : Consume τ (.read r)
  | unlink (r : Unlink) : Consume τ (.unlink r)
  | rmdir (r : Rmdir) : Consume τ (.rmdir r)
  | rename (r : Rename) : Consume τ (.rename r)
  | write (r : Write) (size : Nat) : Consume τ (.write r)
  | readlink (r : Readlink) (data : OsStr) : Consume τ (.readlink r)
  | readlinkC (r : Readlink) (data : CStr) : Consume τ (.readlink r)
  | listXAttrSize (r : ListXAttrSize) (size : Nat) : Consume τ (.listXAttrSize r)
  | failFull (r : ListXAttr) : Consume τ (.listXAttr r)
  | listXAttr (r : ListXAttr) : Consume τ (.listXAttr r)
  | listXAttrRaw (r : ListXAttr) (data : Bytes) : Consume τ (.listXAttr r)
  | getXAttrSize (r : GetXAttrSize) (size : Nat) : Consume τ (.getXAttrSize r)
  | getXAttr (r : GetXAttr) (data : Bytes) : Consume τ (.getXAttr r)

/-- What the host sees of it. -/
def Consume.run {τ : Type} [Timeout τ] : {r : Request} → Consume τ r → Host → Host
  | _, .drop r => r.drop
  | _, .fail r errno => fun host => (r.fail errno host).2
  | _, .ioFail r error => fun host => (r.ioFail error host).2
  | _, .lookup r entry => fun host => (r.reply entry host).2
  | _, .forget r => fun host => r.reply host
  | _, .getattr r stat timeout => fun host => (r.reply stat timeout host).2
  | _, .setattr r stat timeout => fun host => (r.reply stat timeout host).2
  | _, .statfs r stbuf => fun host => (r.reply stbuf host).2
  | _, .readdir r => fun host => (ReaddirCommon.reply r host).2
  | _, .readdirPlus r => fun host => (ReaddirCommon.reply r host).2
  | _, .mkdir r entry => fun host => (r.reply entry host).2
  | _, .create r entry fh => fun host => (r.reply entry fh host).2
  | _, .mknod r entry => fun host => (r.reply entry host).2
  | _, .open r fh => fun host => (r.reply fh host).2
  | _, .release r => fun host => (r.reply host).2
  | _, .read r data => fun host => (r.reply data host).2
  | _, .readVectored r data => fun host => (r.replyVectored data host).2
  | _, .unlink r => fun host => (r.reply host).2
  | _, .rmdir r => fun host => (r.reply host).2
  | _, .rename r => fun host => (r.reply host).2
  | _, .write r size => fun host => (r.reply size host).2
  | _, .readlink r data => fun host => (r.reply data host).2
  | _, .readlinkC r data => fun host => (r.cReply data host).2
  | _, .listXAttrSize r size => fun host => (r.reply size host).2
  | _, .failFull r => fun host => (r.failFull host).2
  | _, .listXAttr r => fun host => (r.reply host).2
  | _, .listXAttrRaw r data => fun host => (r.replyRaw data host).2
  | _, .getXAttrSize r size => fun host => (r.reply size host).2
  | _, .getXAttr r data => fun host => (r.reply data host).2

/-- A `Write` that goes away gives up its reference to the buffer it borrowed from. -/
def Request.releaseBuffer : Request → ArcHeap Bytes → ArcHeap Bytes
  | .write r, heap => heap.release r.buffer
  | _, heap => heap

end ProxmoxFuse
