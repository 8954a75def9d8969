import ProxmoxFuse.Sys

/-!
# Replies and request guards

The part of `requests.rs` every reply goes through. The kernel side is a
`Host`: the outcome of each `writev`, in the order they are made, and the log of
the attempts. Dropping a guard is an explicit call, made where Rust makes it.
-/
namespace ProxmoxFuse

inductive WritevResult where
  | ok
  | err (errno : Int32)
  deriving DecidableEq, Repr

/-- One `writev` on the device: its slices and what the kernel answered. -/
structure Attempt where
  iov : List Bytes
  result : WritevResult
  deriving DecidableEq, Repr

namespace Attempt

/-- The kernel takes one message from the slices of one call. -/
def message (a : Attempt) : Bytes := a.iov.flatten

def header (a : Attempt) : FuseOutHeader := Packed.ofBytes a.message

def unique (a : Attempt) : UInt64 := a.header.unique

def error (a : Attempt) : Int32 := a.header.error

def payload (a : Attempt) : Bytes := a.message.drop (Packed.size FuseOutHeader)

end Attempt

/-- The environment: how each `writev` ends, the page size, and the log so far. -/
structure Host where
  outcome : Nat → WritevResult
  pageSize : Int64
  log : List Attempt

namespace Host

/-- How the next `writev` will end. -/
def next (host : Host) : WritevResult := host.outcome host.log.length

def writev (host : Host) (iov : List Bytes) : WritevResult × Host :=
  (host.next, { host with log := host.log ++ [⟨iov, host.next⟩] })

end Host

/-- `if rc < 0 { Err(io::Error::last_os_error()) } else { Ok(()) }`. -/
def WritevResult.toResult : WritevResult → Except IoError Unit
  | .ok => .ok ()
  | .err errno => .error (.os errno)

/-- `u32::try_from(mem::size_of::<FuseOutHeader>() + data_len)`. -/
def replyLen (dataLen : Nat) : Except IoError UInt32 :=
  let len := Packed.size FuseOutHeader + dataLen
  if len < 2 ^ 32 then .ok (UInt32.ofNat len) else .error (.other "FUSE reply exceeds u32::MAX")

/-- Send a reply consisting of a header plus a single contiguous body. -/
def sendReply (unique : UInt64) (error : Int32) (data : Bytes) (host : Host) :
    Except IoError Unit × Host :=
  match replyLen data.length with
  | .error e => (.error e, host)
  | .ok len =>
      let header : FuseOutHeader := { len, error, unique }
      let (result, host) := host.writev [Packed.bytes header, data]
      (result.toResult, host)

/-- Send a reply with multiple data segments. `iov.len() as i32` is exact for fewer than 2^31 of
them, and no longer list is modelled. -/
def sendReplyVectored (unique : UInt64) (dataSlices : List Bytes) (dataLen : Nat) (host : Host) :
    Except IoError Unit × Host :=
  match replyLen dataLen with
  | .error e => (.error e, host)
  | .ok len =>
      let header : FuseOutHeader := { len, error := 0, unique }
      let (result, host) := host.writev (Packed.bytes header :: dataSlices)
      (result.toResult, host)

def sendErrorReply (unique : UInt64) (errno : Int32) (host : Host) : Except IoError Unit × Host :=
  sendReply unique (-errno) [] host

/-! ### Guards -/

/-- `unique == 0` means "already replied / disarmed". -/
structure RequestGuard where
  unique : UInt64
  deriving DecidableEq, Repr

namespace RequestGuard

def new (unique : UInt64) : RequestGuard := ⟨unique⟩

/-- `Drop`: an armed guard answers with `ENOSYS`, ignoring the outcome. -/
def drop (self : RequestGuard) (host : Host) : Host :=
  if self.unique != 0 then (sendErrorReply self.unique ENOSYS host).2 else host

/-- Consume the request and do not trigger the automatic `ENOSYS` response. -/
def disarm (self : RequestGuard) (host : Host) : Host := drop { self with unique := 0 } host

@[simp] theorem disarm_eq (self : RequestGuard) (host : Host) : self.disarm host = host := rfl

end RequestGuard

/-- Error type for reply methods where cancellation has semantic consequences. -/
inductive ReplyError where
  | cancelled
  | io (error : IoError)
  deriving DecidableEq, Repr

/-- Map a reply I/O result to a `ReplyError`, detecting cancellation. -/
def cancellable : Except IoError Unit → Except ReplyError Unit
  | .ok () => .ok ()
  | .error err => if err.rawOsError = some ENOENT then .error .cancelled else .error (.io err)

def replyErr (request : RequestGuard) (errno : Int32) (host : Host) : Except IoError Unit × Host :=
  let unique := request.unique
  let host := request.disarm host
  sendErrorReply unique errno host

/-- The guard is disarmed only after the reply was accepted. -/
def replyOk (request : RequestGuard) (data : Bytes) (host : Host) :
    Except IoError Unit × RequestGuard × Host :=
  match sendReply request.unique 0 data host with
  | (.error e, host) => (.error e, request, host)
  | (.ok (), host) => (.ok (), { request with unique := 0 }, host)

/-- As `reply_ok`, but a cancelled request is disarmed as well. -/
def replyOkCancellable (request : RequestGuard) (data : Bytes) (host : Host) :
    Except ReplyError Unit × RequestGuard × Host :=
  let (sent, host) := sendReply request.unique 0 data host
  let result := cancellable sent
  match result with
  | .ok () | .error .cancelled => (result, { request with unique := 0 }, host)
  | .error (.io _) => (result, request, host)

def replyXattrSize (request : RequestGuard) (size : Nat) (host : Host) :
    Except IoError Unit × RequestGuard × Host :=
  if size < 2 ^ 32 then
    let out : FuseGetxattrOut := { size := UInt32.ofNat size, padding := 0 }
    replyOk request (Packed.bytes out) host
  else (.error (.other "xattr size exceeds u32::MAX"), request, host)

def replyEntry {τ : Type} [Timeout τ] (request : RequestGuard) (entry : EntryParam τ)
    (host : Host) :
    Except IoError Unit × RequestGuard × Host :=
  replyOk request (Packed.bytes (entryOutFromParam entry)) host

def replyAttr {τ : Type} [Timeout τ] (request : RequestGuard) (stat : Stat) (timeout : τ)
    (host : Host) :
    Except IoError Unit × RequestGuard × Host :=
  let (attrValid, attrValidNsec) := splitTimeout timeout
  let attrOut : FuseAttrOut :=
    { attrValid, attrValidNsec, dummy := 0, attr := FuseAttr.fromStat stat }
  replyOk request (Packed.bytes attrOut) host

/-- The end of a method that took its request by value: the guard left in it is dropped. -/
def dropGuard {ρ : Type} (r : ρ × RequestGuard × Host) : ρ × Host := (r.1, r.2.1.drop r.2.2)

end ProxmoxFuse
