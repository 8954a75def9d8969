import ProxmoxFuse.Stream
import ProxmoxFuse.Tmpfs

/-!
# The example server

`examples/tmpfs/main.rs`: how one request is handled with the file system, and the
loop over the stream. A handler consumes its request through the public API, so
that every step of the server is a step of a consumer of the session.
-/
namespace ProxmoxFuse

/-- What ends `handle_fuse`: a failed stream or reply, or a request of an unknown kind. -/
inductive ServerError where
  | io (error : IoError)
  | unknownRequest
  deriving DecidableEq, Repr

/-- `EntryParam::simple`; `forever` is the greatest timeout. -/
def EntryParam.simple {τ : Type} (forever : τ) (inode : UInt64) (attr : Stat) : EntryParam τ :=
  { inode, generation := 1, attr, attrTimeout := forever, entryTimeout := forever }

def toEntryParam {τ : Type} (forever : τ) (stat : Stat) : EntryParam τ :=
  .simple forever stat.stIno stat

/-- A reply or `fail` whose error ends the loop; a panic ends the program. -/
def orStop (sent : Except Fault Unit) : Except Crash (Except ServerError Unit) :=
  match sent with
  | .ok () => .ok (.ok ())
  | .error (.io e) => .ok (.error (.io e))
  | .error .panic => .error .panic

def handleReplyErr : ReplyError → Except ServerError Unit
  | .cancelled => .ok ()
  | .io e => .error (.io e)

/-- `if let Err(err) = sent { handle_reply_err(err)?; }`. -/
def orCancelled : Except ReplyError Unit → Except ServerError Unit
  | .ok () => .ok ()
  | .error e => handleReplyErr e

/-! ### Listing a directory -/

/-- What one entry of a listing leads to: go on, or stop because the buffer is full. -/
inductive ListState where
  | more
  | full
  deriving DecidableEq, Repr

def listed (added : Except Fault ReplyBufState) : Except Crash (Except IoError ListState) :=
  match added with
  | .ok .ok => .ok (.ok .more)
  | .ok .full => .ok (.ok .full)
  | .error (.io e) => .ok (.error e)
  | .error .panic => .error .panic

/-- Look an inode up and add it under a name. -/
def listInode (self : Fs) (request : Readdir) (name : OsStr) (inode next : Nat)
    (stack : Option Nat := none) : Except Crash (Except IoError ListState × Readdir × Fs) :=
  match self.lookup inode with
  | (.error e, self) => .ok (.error e, request, self)
  | (.ok node, self) => do
      let entry ← self.deref node
      let (added, request) := Readdir.addEntry request name entry.stat (UInt64.ofNat next)
      let result ← listed added
      let self ← self.dropLookup node stack
      return (result, request, self)

/-- The loop over the files from the offset on. -/
def listFiles (files : List (OsStr × Nat)) (next : Nat) (self : Fs) (request : Readdir)
    (stack : Option Nat := none) : Except Crash (Except IoError ListState × Nat × Readdir × Fs) :=
  match files with
  | [] => .ok (.ok .more, next, request, self)
  | (name, inode) :: rest => do
      let (result, request, self) ← listInode self request name inode (next + 1) stack
      match result with
      | .ok .more => listFiles rest (next + 1) self request stack
      | result => return (result, next + 1, request, self)

/-- The `..` behind the files. -/
def listParent (dir : InodeLookup) (fileCount next : Nat) (self : Fs) (request : Readdir)
    (stack : Option Nat := none) : Except Crash (Except IoError ListState × Nat × Readdir × Fs) :=
  if next = fileCount then do
    let entry ← self.deref dir
    let (result, request, self) ← listInode self request dotdot entry.parent (next + 1) stack
    return (result, next + 1, request, self)
  else .ok (.ok .more, next, request, self)

/-- The `.` at the end. -/
def listSelf (dir : InodeLookup) (fileCount next : Nat) (self : Fs) (request : Readdir) :
    Except Crash (Except IoError ListState × Readdir) :=
  if next = fileCount + 1 then do
    let entry ← self.deref dir
    let (added, request) := Readdir.addEntry request dot entry.stat (UInt64.ofNat (next + 1))
    let result ← listed added
    return (result, request)
  else .ok (.ok .more, request)

/-- `Full` returns as success. -/
def ListState.finish (result : Except IoError ListState) : Except IoError Unit :=
  result.map fun _ => ()

def listDir (self : Fs) (dir : InodeLookup) (files : Files) (request : Readdir)
    (stack : Option Nat := none) : Except Crash (Except IoError Unit × Readdir × Fs) := do
  let offset := request.offset.toNat
  let (result, next, request, self) ←
    listFiles (files.toList.drop offset) offset self request stack
  if result ≠ .ok .more then return (ListState.finish result, request, self)
  let (result, next, request, self) ← listParent dir files.size next self request stack
  if result ≠ .ok .more then return (ListState.finish result, request, self)
  let (result, request) ← listSelf dir files.size next self request
  return (ListState.finish result, request, self)

def handleReaddir (self : Fs) (request : Readdir) (stack : Option Nat := none) :
    Except Crash (Except IoError Unit × Readdir × Fs) :=
  match self.lookup request.inode.toNat with
  | (.error e, self) => .ok (.error e, request, self)
  | (.ok dir, self) => do
      let entry ← self.deref dir
      match entry.content with
      | .dir files =>
          let (result, request, self) ← listDir self dir files request stack
          let self ← self.dropLookup dir stack
          return (result, request, self)
      | .file _ =>
          let self ← self.dropLookup dir stack
          return (.error (.os ENOTDIR), request, self)

/-! ### Setting attributes -/

/-- A time to set, with the clock for "now"; it is read once at most. -/
def SetTime.resolve (now : Duration) : SetTime → Duration
  | .now => now
  | .time t => t

/-- `if let Some(value) = given { ... }`. -/
def Stat.setGiven {α : Type} (given : Option α) (set : α → Stat → Stat) (stat : Stat) : Stat :=
  match given with
  | some value => set value stat
  | none => stat

def applySetattr (request : Setattr) (now : Duration) (stat : Stat) : Stat :=
  let stat :=
    stat.setGiven request.mode fun mode stat =>
      { stat with stMode := (stat.stMode &&& S_IFMT) ||| mode }
  let stat := stat.setGiven request.uid fun uid stat => { stat with stUid := uid }
  let stat := stat.setGiven request.gid fun gid stat => { stat with stGid := gid }
  let stat := stat.setGiven request.size fun size stat => { stat with stSize := size.toInt64 }
  let stat := stat.setGiven (request.atime.map (·.resolve now)) fun time stat =>
    { stat with stAtime := time.secsAsI64, stAtimeNsec := time.nanosAsI64 }
  let stat := stat.setGiven (request.mtime.map (·.resolve now)) fun time stat =>
    { stat with stMtime := time.secsAsI64, stMtimeNsec := time.nanosAsI64 }
  stat.setGiven request.ctime fun time stat =>
    { stat with stCtime := time.secsAsI64, stCtimeNsec := time.nanosAsI64 }

def handleSetattr (self : Fs) (request : Setattr) (now : Duration) :
    Except IoError InodeLookup × Fs :=
  match self.lookup request.inode.toNat with
  | (.error e, self) => (.error e, self)
  | (.ok file, self) =>
      (.ok file, self.update file fun entry =>
        { entry with stat := applySetattr request now entry.stat })

/-! ### One request -/

/-- What the handler of a request has besides the file system: the clock, the room
on the stack, the greatest timeout and the buffers. -/
structure Env (τ : Type) where
  now : Duration
  depth : Nat
  forever : τ
  heap : ArcHeap Bytes

abbrev Handled := Except Crash (Except ServerError Unit × Fs × Host)

section handlers
variable {τ : Type} [Timeout τ] (env : Env τ)

/-- `handle_io_err(err, |err| request.io_fail(err))?`. -/
def failWith (self : Fs) (request : Request) (error : IoError) (host : Host) : Handled := do
  let (sent, host) := request.ioFail error host
  return (← orStop sent, self, host)

def replied (self : Fs) (sent : Except IoError Unit × Host) : Handled :=
  .ok (sent.1.mapError .io, self, sent.2)

def handleGetattr (self : Fs) (r : Getattr) (host : Host) : Handled :=
  match self.lookup r.inode.toNat with
  | (.ok node, self) => do
      let entry ← self.deref node
      replied self (r.reply entry.stat env.forever host)
  | (.error e, self) => failWith self (.getattr r) e host

def handleSetattrRequest (self : Fs) (r : Setattr) (host : Host) (stack : Option Nat := none) :
    Handled :=
  match handleSetattr self r env.now with
  | (.ok node, self) => do
      let entry ← self.deref node
      let (sent, host) := r.reply entry.stat env.forever host
      let self ← self.dropLookup node stack
      return (sent.mapError .io, self, host)
  | (.error e, self) => failWith self (.setattr r) e host

def handleLookup (self : Fs) (r : Lookup) (host : Host) (stack : Option Nat := none) :
    Handled := do
  match ← self.lookupAt r.parent.toNat r.fileName stack with
  | (.ok node, self) =>
      let entry ← self.deref node
      let (sent, host) := r.reply (toEntryParam env.forever entry.stat) host
      return (orCancelled sent, self, host)
  | (.error e, self) => failWith self (.lookup r) e host

/-- A forget that fails is only reported on the standard error. -/
def handleForget (self : Fs) (r : Forget) (host : Host) (stack : Option Nat := none) :
    Handled := do
  let (result, self) ← self.forget r.inode.toNat r.count stack
  match result with
  | .ok () => return (.ok (), self, r.reply host)
  | .error _ => return (.ok (), self, r.drop host)

def handleReaddirRequest (self : Fs) (r : Readdir) (host : Host) (stack : Option Nat := none) :
    Handled := do
  let (result, r, self) ← handleReaddir self r stack
  match result with
  | .ok () =>
      let (sent, host) := ReaddirCommon.reply r host
      return (← orStop sent, self, host)
  | .error e => failWith self (.readdir r) e host

/-- The reply of `Mkdir` and `Mknod`, whose entry keeps its lookup. -/
def replyNew (self : Fs) (node : InodeLookup) (reply : EntryParam τ → Except IoError Unit × Host) :
    Handled := do
  let entry ← self.deref node
  replied self (reply (toEntryParam env.forever entry.stat))

def handleMkdir (self : Fs) (r : Mkdir) (host : Host) (stack : Option Nat := none) :
    Handled := do
  match ← self.mkdir r.parent.toNat r.dirName r.mode env.now stack with
  | (.ok node, self) => replyNew env self node (r.reply · host)
  | (.error e, self) => failWith self (.mkdir r) e host

def handleMknod (self : Fs) (r : Mknod) (host : Host) (stack : Option Nat := none) :
    Handled := do
  match ← self.create r.parent.toNat r.fileName r.mode env.now stack with
  | (.ok node, self) => replyNew env self node (r.reply · host)
  | (.error e, self) => failWith self (.mknod r) e host

/-- CREATE acts as `Lookup` and `Open`: the lookup count goes up only after a
successful reply, since otherwise the kernel never saw the inode. -/
def handleCreate (self : Fs) (r : Create) (host : Host) (stack : Option Nat := none) :
    Handled := do
  match ← self.create r.parent.toNat r.fileName r.mode env.now stack with
  | (.ok node, self) =>
      let entry ← self.deref node
      let (sent, host) := r.reply (toEntryParam env.forever entry.stat) 0 host
      let self ← (match sent with
        | .ok () => self.incrementLookup node
        | .error _ => .ok self : Except Crash Fs)
      let self ← self.dropLookup node stack
      return (orCancelled sent, self, host)
  | (.error e, self) => failWith self (.create r) e host

def handleOpen (self : Fs) (r : Open) (host : Host) (stack : Option Nat := none) :
    Handled :=
  match self.lookup r.inode.toNat with
  | (.ok node, self) => do
      let (sent, host) := r.reply 0 host
      let self ← self.dropLookup node stack
      return (orCancelled sent, self, host)
  | (.error e, self) => failWith self (.open r) e host

def handleRelease (self : Fs) (r : Release) (host : Host) (stack : Option Nat := none) :
    Handled := do
  match ← self.forget r.inode.toNat 1 stack with
  | (.ok (), self) => replied self (r.reply host)
  | (.error e, self) => failWith self (.release r) e host

def handleUnlink (self : Fs) (r : Unlink) (host : Host) (stack : Option Nat := none) :
    Handled := do
  match ← self.unlink r.parent.toNat r.fileName false stack with
  | (.ok (), self) => replied self (r.reply host)
  | (.error e, self) => failWith self (.unlink r) e host

def handleRmdir (self : Fs) (r : Rmdir) (host : Host) (stack : Option Nat := none) :
    Handled := do
  match ← self.unlink r.parent.toNat r.dirName true stack with
  | (.ok (), self) => replied self (r.reply host)
  | (.error e, self) => failWith self (.rmdir r) e host

/-- `request.data()`, whose slice may panic. -/
def writeData (r : Write) : Except Crash Bytes :=
  match r.data env.heap with
  | .ok data => .ok data
  | .error _ => .error .panic

def handleWrite (self : Fs) (r : Write) (host : Host) (stack : Option Nat := none) :
    Handled := do
  let data ← writeData env r
  match ← self.write env.depth r.inode.toNat data r.offset.toNat stack with
  | (.ok (), self) => replied self (r.reply data.length host)
  | (.error e, self) => failWith self (.write r) e host

/-- For simplicity reads are limited to 1 MiB. -/
def handleRead (self : Fs) (r : Read) (host : Host) (stack : Option Nat := none) :
    Handled := do
  let size := min r.size (1024 * 1024)
  match ← self.read r.inode.toNat (List.replicate size 0) r.offset.toNat stack with
  | (.ok (got, buf), self) => replied self (r.reply (buf.take got) host)
  | (.error e, self) => failWith self (.read r) e host

/-- One turn of `handle_fuse`; the remaining kinds are dropped by `bail!`. -/
def handle (self : Fs) (request : Request) (host : Host) (stack : Option Nat := none) : Handled :=
  match request with
  | .getattr r => handleGetattr env self r host
  | .setattr r => handleSetattrRequest env self r host stack
  | .lookup r => handleLookup env self r host stack
  | .forget r => handleForget self r host stack
  | .readdir r => handleReaddirRequest self r host stack
  | .mkdir r => handleMkdir env self r host stack
  | .create r => handleCreate env self r host stack
  | .mknod r => handleMknod env self r host stack
  | .open r => handleOpen self r host stack
  | .release r => handleRelease self r host stack
  | .unlink r => handleUnlink self r host stack
  | .rmdir r => handleRmdir self r host stack
  | .write r => handleWrite env self r host stack
  | .read r => handleRead self r host stack
  | other => .ok (.error .unknownRequest, self, other.drop host)

end handlers

/-! ### The loop -/

/-- The session `main` builds. -/
def mytmpfs : FuseSessionBuilder :=
  (Fuse.builder "mytmpfs").enableReaddir.enableMkdir.enableRmdir.enableCreate.enableUnlink
    |>.enableMknod.enableSetattr.enableRead.enableWrite

/-- What a poll of the stream meets: the choices of the environment for its turns, and what the
handler of the request it returns finds. -/
structure Wake (τ : Type) where
  turns : List Turn
  now : Duration
  depth : Nat
  forever : τ

/-- How the loop stands when there is nothing more to poll. -/
inductive LoopEnd where
  | finished
  | failed (error : ServerError)
  | waiting
  deriving DecidableEq, Repr

/-- The request that was handed out last has been given up. -/
def World.handed (w : World) (request : Request) (host : Host) : World :=
  { w with held := w.held.dropLast, host, heap := request.releaseBuffer w.heap }

/-- `handle_fuse`. A poll that is pending or still looping goes on at the next wake; every way
out drops the `Fuse`. -/
def handleFuse {τ : Type} [Timeout τ] (wakes : List (Wake τ)) (w : World) (self : Fs)
    (stack : Option Nat := none) : Except Crash (LoopEnd × World × Fs) :=
  match wakes with
  | [] => .ok (.waiting, w, self)
  | wake :: rest =>
      match w.pollNext wake.turns with
      | (some (.item (.ok request)), w) => do
          let (result, self, host) ←
            handle ⟨wake.now, wake.depth, wake.forever, w.heap⟩ self request w.host stack
          match result with
          | .ok () => handleFuse rest (w.handed request host) self stack
          | .error e => return (.failed e, (w.handed request host).dropFuse, self)
      | (some (.item (.error e)), w) => .ok (.failed (.io e), w.dropFuse, self)
      | (some .done, w) => .ok (.finished, w.dropFuse, self)
      | (some .panicked, _) => .error .panic
      | (_, w) => handleFuse rest w self stack

end ProxmoxFuse
