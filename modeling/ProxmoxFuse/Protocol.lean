import ProxmoxFuse.Codec

/-!
# Kernel protocol types

The structures of `protocol.rs`, read and written in the byte order of the
little-endian targets the crate runs on. Every wire structure of the source is
`repr(C)` with explicit padding fields, so its layout is the packed sequence of
its fields.
-/
namespace ProxmoxFuse

def FUSE_KERNEL_VERSION : UInt32 := 7
def FUSE_KERNEL_MINOR_VERSION : UInt32 := 31

/-! ### Errors -/

/-- `io::Error`: an operating system error or `io::Error::other`. -/
inductive IoError where
  | os (errno : Int32)
  | other (message : String)
  deriving DecidableEq, Repr

def IoError.rawOsError : IoError → Option Int32
  | .os errno => some errno
  | .other _ => none

/-- How a Rust computation stops early: an error value, or a panic. -/
inductive Fault where
  | io (error : IoError)
  | panic
  deriving DecidableEq, Repr

def EIO : Int32 := 5
def ENOENT : Int32 := 2
def EAGAIN : Int32 := 11
def ENODEV : Int32 := 19
def ERANGE : Int32 := 34
def ENOSYS : Int32 := 38
def ECONNABORTED : Int32 := 103

/-- `&bs[..n]`, which panics past the end. -/
def sliceTo (bs : Bytes) (n : Nat) : Except Fault Bytes :=
  if n ≤ bs.length then .ok (bs.take n) else .error .panic

/-- `&bs[n..]`, which panics past the end. -/
def sliceFrom (bs : Bytes) (n : Nat) : Except Fault Bytes :=
  if n ≤ bs.length then .ok (bs.drop n) else .error .panic

/-! ### Opcodes -/

inductive Opcode where
  | lookup | forget | getattr | setattr | readlink | mknod | mkdir | unlink | rmdir | «open»
  | read | write | statfs | release | getxattr | listxattr | init | readdir | create
  | interrupt | destroy | batchForget | readdirplus | rename2
  deriving DecidableEq, Repr

/-- The `repr(u32)` discriminants. -/
def Opcode.code : Opcode → UInt32
  | .lookup => 1
  | .forget => 2
  | .getattr => 3
  | .setattr => 4
  | .readlink => 5
  | .mknod => 8
  | .mkdir => 9
  | .unlink => 10
  | .rmdir => 11
  | .open => 14
  | .read => 15
  | .write => 16
  | .statfs => 17
  | .release => 18
  | .getxattr => 22
  | .listxattr => 23
  | .init => 26
  | .readdir => 28
  | .create => 35
  | .interrupt => 36
  | .destroy => 38
  | .batchForget => 42
  | .readdirplus => 44
  | .rename2 => 45

def Opcode.fromU32 (v : UInt32) : Option Opcode :=
  match v.toNat with
  | 1 => some .lookup
  | 2 => some .forget
  | 3 => some .getattr
  | 4 => some .setattr
  | 5 => some .readlink
  | 8 => some .mknod
  | 9 => some .mkdir
  | 10 => some .unlink
  | 11 => some .rmdir
  | 14 => some .open
  | 15 => some .read
  | 16 => some .write
  | 17 => some .statfs
  | 18 => some .release
  | 22 => some .getxattr
  | 23 => some .listxattr
  | 26 => some .init
  | 28 => some .readdir
  | 35 => some .create
  | 36 => some .interrupt
  | 38 => some .destroy
  | 42 => some .batchForget
  | 44 => some .readdirplus
  | 45 => some .rename2
  | _ => none

@[simp] theorem Opcode.fromU32_code (o : Opcode) : Opcode.fromU32 o.code = some o := by
  cases o <;> rfl

/-- The match arms and the discriminants never diverge. -/
theorem Opcode.fromU32_eq_some {v : UInt32} {o : Opcode} :
    Opcode.fromU32 v = some o ↔ v = o.code := by
  constructor
  · intro h
    apply UInt32.toNat_inj.mp
    unfold Opcode.fromU32 at h
    split at h <;> first | contradiction | (cases h; assumption)
  · rintro rfl
    exact Opcode.fromU32_code o

/-! ### Flag words -/

/-- A `bitflags` word whose declared flags are the bits of `known`. -/
structure BitFlags (known : UInt32) where
  bits : UInt32
  deriving DecidableEq, Repr

namespace BitFlags
variable {known : UInt32}

def empty : BitFlags known := ⟨0⟩

def fromBitsTruncate (bits : UInt32) : BitFlags known := ⟨bits &&& known⟩

def contains (self other : BitFlags known) : Bool := self.bits &&& other.bits == other.bits

def union (self other : BitFlags known) : BitFlags known := ⟨self.bits ||| other.bits⟩

def inter (self other : BitFlags known) : BitFlags known := ⟨self.bits &&& other.bits⟩

def set (self other : BitFlags known) (value : Bool) : BitFlags known :=
  if value then ⟨self.bits ||| other.bits⟩ else ⟨self.bits &&& ~~~other.bits⟩

end BitFlags

/-- FATTR_* flags indicating which fields are valid in a setattr request. -/
abbrev FattrFlags := BitFlags 0x5ff

namespace FattrFlags

def MODE : FattrFlags := ⟨(1 : UInt32) <<< 0⟩
def UID : FattrFlags := ⟨(1 : UInt32) <<< 1⟩
def GID : FattrFlags := ⟨(1 : UInt32) <<< 2⟩
def SIZE : FattrFlags := ⟨(1 : UInt32) <<< 3⟩
def ATIME : FattrFlags := ⟨(1 : UInt32) <<< 4⟩
def MTIME : FattrFlags := ⟨(1 : UInt32) <<< 5⟩
def FH : FattrFlags := ⟨(1 : UInt32) <<< 6⟩
def ATIME_NOW : FattrFlags := ⟨(1 : UInt32) <<< 7⟩
def MTIME_NOW : FattrFlags := ⟨(1 : UInt32) <<< 8⟩
def CTIME : FattrFlags := ⟨(1 : UInt32) <<< 10⟩

end FattrFlags

/-- FOPEN_* flags for open/create replies. -/
abbrev FopenFlags := BitFlags 0x3f

namespace FopenFlags

def DIRECT_IO : FopenFlags := ⟨(1 : UInt32) <<< 0⟩
def KEEP_CACHE : FopenFlags := ⟨(1 : UInt32) <<< 1⟩
def NONSEEKABLE : FopenFlags := ⟨(1 : UInt32) <<< 2⟩
def CACHE_DIR : FopenFlags := ⟨(1 : UInt32) <<< 3⟩
def NOFLUSH : FopenFlags := ⟨(1 : UInt32) <<< 5⟩

end FopenFlags

/-- FUSE_INIT capability flags. -/
abbrev InitFlags := BitFlags 0x1426029

namespace InitFlags

def ASYNC_READ : InitFlags := ⟨(1 : UInt32) <<< 0⟩
def ATOMIC_O_TRUNC : InitFlags := ⟨(1 : UInt32) <<< 3⟩
def BIG_WRITES : InitFlags := ⟨(1 : UInt32) <<< 5⟩
def DO_READDIRPLUS : InitFlags := ⟨(1 : UInt32) <<< 13⟩
def READDIRPLUS_AUTO : InitFlags := ⟨(1 : UInt32) <<< 14⟩
def NO_OPEN_SUPPORT : InitFlags := ⟨(1 : UInt32) <<< 17⟩
def MAX_PAGES : InitFlags := ⟨(1 : UInt32) <<< 22⟩
def NO_OPENDIR_SUPPORT : InitFlags := ⟨(1 : UInt32) <<< 24⟩

end InitFlags

/-! ### Wire structures -/

structure FuseInHeader where
  len : UInt32
  opcode : UInt32
  unique : UInt64
  nodeid : UInt64
  uid : UInt32
  gid : UInt32
  pid : UInt32
  totalExtlen : UInt16
  padding : UInt16
  deriving DecidableEq, Repr

instance : Packed FuseInHeader := Packed.via
  (fun h => (h.len, h.opcode, h.unique, h.nodeid, h.uid, h.gid, h.pid, h.totalExtlen, h.padding))
  (fun (len, opcode, unique, nodeid, uid, gid, pid, totalExtlen, padding) =>
    ⟨len, opcode, unique, nodeid, uid, gid, pid, totalExtlen, padding⟩) (fun _ => rfl)

structure FuseOutHeader where
  len : UInt32
  error : Int32
  unique : UInt64
  deriving DecidableEq, Repr

instance : Packed FuseOutHeader := Packed.via (fun h => (h.len, h.error, h.unique))
  (fun (len, error, unique) => ⟨len, error, unique⟩) (fun _ => rfl)

/-- The fields of `libc::stat` that the crate reads or writes. -/
structure Stat where
  stIno : UInt64
  stNlink : UInt64
  stMode : UInt32
  stUid : UInt32
  stGid : UInt32
  stRdev : UInt64
  stSize : Int64
  stBlksize : Int64
  stBlocks : Int64
  stAtime : Int64
  stAtimeNsec : Int64
  stMtime : Int64
  stMtimeNsec : Int64
  stCtime : Int64
  stCtimeNsec : Int64
  deriving DecidableEq, Repr

/-- `mem::zeroed()` at `libc::stat`. -/
def Stat.zeroed : Stat := ⟨0, 0, 0, 0, 0, 0, 0, 0, 0, 0, 0, 0, 0, 0, 0⟩

structure FuseAttr where
  ino : UInt64
  size : UInt64
  blocks : UInt64
  atime : UInt64
  mtime : UInt64
  ctime : UInt64
  atimensec : UInt32
  mtimensec : UInt32
  ctimensec : UInt32
  mode : UInt32
  nlink : UInt32
  uid : UInt32
  gid : UInt32
  rdev : UInt32
  blksize : UInt32
  flags : UInt32
  deriving DecidableEq, Repr

instance : Packed FuseAttr := Packed.via
  (fun a => (a.ino, a.size, a.blocks, a.atime, a.mtime, a.ctime, a.atimensec, a.mtimensec,
    a.ctimensec, a.mode, a.nlink, a.uid, a.gid, a.rdev, a.blksize, a.flags))
  (fun (ino, size, blocks, atime, mtime, ctime, atimensec, mtimensec, ctimensec, mode, nlink,
      uid, gid, rdev, blksize, flags) =>
    ⟨ino, size, blocks, atime, mtime, ctime, atimensec, mtimensec, ctimensec, mode, nlink,
      uid, gid, rdev, blksize, flags⟩) (fun _ => rfl)

/-- Pre-epoch timestamps cannot be represented in the wire format and are clamped. -/
def FuseAttr.fromStat (s : Stat) : FuseAttr where
  ino := s.stIno
  size := s.stSize.toUInt64
  blocks := s.stBlocks.toUInt64
  atime := (max s.stAtime 0).toUInt64
  mtime := (max s.stMtime 0).toUInt64
  ctime := (max s.stCtime 0).toUInt64
  atimensec := (max s.stAtimeNsec 0).toUInt64.toUInt32
  mtimensec := (max s.stMtimeNsec 0).toUInt64.toUInt32
  ctimensec := (max s.stCtimeNsec 0).toUInt64.toUInt32
  mode := s.stMode
  nlink := s.stNlink.toUInt32
  uid := s.stUid
  gid := s.stGid
  rdev := s.stRdev.toUInt32
  blksize := s.stBlksize.toUInt64.toUInt32
  flags := 0

structure FuseEntryOut where
  nodeid : UInt64
  generation : UInt64
  entryValid : UInt64
  attrValid : UInt64
  entryValidNsec : UInt32
  attrValidNsec : UInt32
  attr : FuseAttr
  deriving DecidableEq, Repr

instance : Packed FuseEntryOut := Packed.via
  (fun e => (e.nodeid, e.generation, e.entryValid, e.attrValid, e.entryValidNsec, e.attrValidNsec,
    e.attr))
  (fun (nodeid, generation, entryValid, attrValid, entryValidNsec, attrValidNsec, attr) =>
    ⟨nodeid, generation, entryValid, attrValid, entryValidNsec, attrValidNsec, attr⟩) (fun _ => rfl)

structure FuseAttrOut where
  attrValid : UInt64
  attrValidNsec : UInt32
  dummy : UInt32
  attr : FuseAttr
  deriving DecidableEq, Repr

instance : Packed FuseAttrOut :=
  Packed.via (fun a => (a.attrValid, a.attrValidNsec, a.dummy, a.attr))
  (fun (attrValid, attrValidNsec, dummy, attr) => ⟨attrValid, attrValidNsec, dummy, attr⟩)
    (fun _ => rfl)

/-- The fields of `libc::statvfs` that the crate reads. -/
structure Statvfs where
  fBlocks : UInt64
  fBfree : UInt64
  fBavail : UInt64
  fFiles : UInt64
  fFfree : UInt64
  fBsize : UInt64
  fNamemax : UInt64
  fFrsize : UInt64
  deriving DecidableEq, Repr

structure FuseKstatfs where
  blocks : UInt64
  bfree : UInt64
  bavail : UInt64
  files : UInt64
  ffree : UInt64
  bsize : UInt32
  namelen : UInt32
  frsize : UInt32
  padding : UInt32
  spare : List.Vector UInt32 6
  deriving DecidableEq

instance : Packed FuseKstatfs := Packed.via
  (fun k => (k.blocks, k.bfree, k.bavail, k.files, k.ffree, k.bsize, k.namelen, k.frsize, k.padding,
    k.spare))
  (fun (blocks, bfree, bavail, files, ffree, bsize, namelen, frsize, padding, spare) =>
    ⟨blocks, bfree, bavail, files, ffree, bsize, namelen, frsize, padding, spare⟩) (fun _ => rfl)

def FuseKstatfs.fromStatvfs (s : Statvfs) : FuseKstatfs where
  blocks := s.fBlocks
  bfree := s.fBfree
  bavail := s.fBavail
  files := s.fFiles
  ffree := s.fFfree
  bsize := s.fBsize.toUInt32
  namelen := s.fNamemax.toUInt32
  frsize := s.fFrsize.toUInt32
  padding := 0
  spare := List.Vector.replicate 6 0

structure FuseForgetIn where
  nlookup : UInt64
  deriving DecidableEq, Repr

instance : Packed FuseForgetIn :=
  Packed.via (fun f => f.nlookup) (fun nlookup => ⟨nlookup⟩) (fun _ => rfl)

structure FuseBatchForgetIn where
  count : UInt32
  dummy : UInt32
  deriving DecidableEq, Repr

instance : Packed FuseBatchForgetIn := Packed.via (fun b => (b.count, b.dummy))
  (fun (count, dummy) => ⟨count, dummy⟩) (fun _ => rfl)

structure FuseForgetOne where
  nodeid : UInt64
  nlookup : UInt64
  deriving DecidableEq, Repr

instance : Packed FuseForgetOne := Packed.via (fun f => (f.nodeid, f.nlookup))
  (fun (nodeid, nlookup) => ⟨nodeid, nlookup⟩) (fun _ => rfl)

structure FuseSetattrIn where
  valid : UInt32
  padding : UInt32
  fh : UInt64
  size : UInt64
  lockOwner : UInt64
  atime : UInt64
  mtime : UInt64
  ctime : UInt64
  atimensec : UInt32
  mtimensec : UInt32
  ctimensec : UInt32
  mode : UInt32
  unused4 : UInt32
  uid : UInt32
  gid : UInt32
  unused5 : UInt32
  deriving DecidableEq, Repr

instance : Packed FuseSetattrIn := Packed.via
  (fun s => (s.valid, s.padding, s.fh, s.size, s.lockOwner, s.atime, s.mtime, s.ctime, s.atimensec,
    s.mtimensec, s.ctimensec, s.mode, s.unused4, s.uid, s.gid, s.unused5))
  (fun (valid, padding, fh, size, lockOwner, atime, mtime, ctime, atimensec, mtimensec, ctimensec,
      mode, unused4, uid, gid, unused5) =>
    ⟨valid, padding, fh, size, lockOwner, atime, mtime, ctime, atimensec, mtimensec, ctimensec,
      mode, unused4, uid, gid, unused5⟩) (fun _ => rfl)

/-- Only the fields that can appear in a setattr request are populated. -/
def FuseSetattrIn.toStat (self : FuseSetattrIn) : Stat :=
  { Stat.zeroed with
    stMode := self.mode
    stUid := self.uid
    stGid := self.gid
    stSize := self.size.toInt64
    stAtime := self.atime.toInt64
    stAtimeNsec := self.atimensec.toUInt64.toInt64
    stMtime := self.mtime.toInt64
    stMtimeNsec := self.mtimensec.toUInt64.toInt64
    stCtime := self.ctime.toInt64
    stCtimeNsec := self.ctimensec.toUInt64.toInt64 }

structure FuseOpenIn where
  flags : UInt32
  openFlags : UInt32
  deriving DecidableEq, Repr

instance : Packed FuseOpenIn := Packed.via (fun o => (o.flags, o.openFlags))
  (fun (flags, openFlags) => ⟨flags, openFlags⟩) (fun _ => rfl)

structure FuseOpenOut where
  fh : UInt64
  openFlags : UInt32
  backingId : Int32
  deriving DecidableEq, Repr

instance : Packed FuseOpenOut := Packed.via (fun o => (o.fh, o.openFlags, o.backingId))
  (fun (fh, openFlags, backingId) => ⟨fh, openFlags, backingId⟩) (fun _ => rfl)

structure FuseCreateIn where
  flags : UInt32
  mode : UInt32
  umask : UInt32
  openFlags : UInt32
  deriving DecidableEq, Repr

instance : Packed FuseCreateIn := Packed.via (fun c => (c.flags, c.mode, c.umask, c.openFlags))
  (fun (flags, mode, umask, openFlags) => ⟨flags, mode, umask, openFlags⟩) (fun _ => rfl)

structure FuseReleaseIn where
  fh : UInt64
  flags : UInt32
  releaseFlags : UInt32
  lockOwner : UInt64
  deriving DecidableEq, Repr

instance : Packed FuseReleaseIn :=
  Packed.via (fun r => (r.fh, r.flags, r.releaseFlags, r.lockOwner))
  (fun (fh, flags, releaseFlags, lockOwner) => ⟨fh, flags, releaseFlags, lockOwner⟩) (fun _ => rfl)

structure FuseReadIn where
  fh : UInt64
  offset : UInt64
  size : UInt32
  readFlags : UInt32
  lockOwner : UInt64
  flags : UInt32
  padding : UInt32
  deriving DecidableEq, Repr

instance : Packed FuseReadIn := Packed.via
  (fun r => (r.fh, r.offset, r.size, r.readFlags, r.lockOwner, r.flags, r.padding))
  (fun (fh, offset, size, readFlags, lockOwner, flags, padding) =>
    ⟨fh, offset, size, readFlags, lockOwner, flags, padding⟩) (fun _ => rfl)

structure FuseWriteIn where
  fh : UInt64
  offset : UInt64
  size : UInt32
  writeFlags : UInt32
  lockOwner : UInt64
  flags : UInt32
  padding : UInt32
  deriving DecidableEq, Repr

instance : Packed FuseWriteIn := Packed.via
  (fun w => (w.fh, w.offset, w.size, w.writeFlags, w.lockOwner, w.flags, w.padding))
  (fun (fh, offset, size, writeFlags, lockOwner, flags, padding) =>
    ⟨fh, offset, size, writeFlags, lockOwner, flags, padding⟩) (fun _ => rfl)

structure FuseWriteOut where
  size : UInt32
  padding : UInt32
  deriving DecidableEq, Repr

instance : Packed FuseWriteOut := Packed.via (fun w => (w.size, w.padding))
  (fun (size, padding) => ⟨size, padding⟩) (fun _ => rfl)

structure FuseMknodIn where
  mode : UInt32
  rdev : UInt32
  umask : UInt32
  padding : UInt32
  deriving DecidableEq, Repr

instance : Packed FuseMknodIn := Packed.via (fun m => (m.mode, m.rdev, m.umask, m.padding))
  (fun (mode, rdev, umask, padding) => ⟨mode, rdev, umask, padding⟩) (fun _ => rfl)

structure FuseMkdirIn where
  mode : UInt32
  umask : UInt32
  deriving DecidableEq, Repr

instance : Packed FuseMkdirIn := Packed.via (fun m => (m.mode, m.umask))
  (fun (mode, umask) => ⟨mode, umask⟩) (fun _ => rfl)

structure FuseRename2In where
  newdir : UInt64
  flags : UInt32
  padding : UInt32
  deriving DecidableEq, Repr

instance : Packed FuseRename2In := Packed.via (fun r => (r.newdir, r.flags, r.padding))
  (fun (newdir, flags, padding) => ⟨newdir, flags, padding⟩) (fun _ => rfl)

structure FuseInitIn where
  major : UInt32
  minor : UInt32
  maxReadahead : UInt32
  flags : UInt32
  flags2 : UInt32
  unused : List.Vector UInt32 11
  deriving DecidableEq

instance : Packed FuseInitIn := Packed.via
  (fun i => (i.major, i.minor, i.maxReadahead, i.flags, i.flags2, i.unused))
  (fun (major, minor, maxReadahead, flags, flags2, unused) =>
    ⟨major, minor, maxReadahead, flags, flags2, unused⟩) (fun _ => rfl)

structure FuseInitOut where
  major : UInt32
  minor : UInt32
  maxReadahead : UInt32
  flags : UInt32
  maxBackground : UInt16
  congestionThreshold : UInt16
  maxWrite : UInt32
  timeGran : UInt32
  maxPages : UInt16
  mapAlignment : UInt16
  flags2 : UInt32
  maxStackDepth : UInt32
  requestTimeout : UInt16
  unused : List.Vector UInt16 11
  deriving DecidableEq

instance : Packed FuseInitOut := Packed.via
  (fun i => (i.major, i.minor, i.maxReadahead, i.flags, i.maxBackground, i.congestionThreshold,
    i.maxWrite, i.timeGran, i.maxPages, i.mapAlignment, i.flags2, i.maxStackDepth,
    i.requestTimeout, i.unused))
  (fun (major, minor, maxReadahead, flags, maxBackground, congestionThreshold, maxWrite, timeGran,
      maxPages, mapAlignment, flags2, maxStackDepth, requestTimeout, unused) =>
    ⟨major, minor, maxReadahead, flags, maxBackground, congestionThreshold, maxWrite, timeGran,
      maxPages, mapAlignment, flags2, maxStackDepth, requestTimeout, unused⟩) (fun _ => rfl)

structure FuseGetxattrIn where
  size : UInt32
  padding : UInt32
  deriving DecidableEq, Repr

instance : Packed FuseGetxattrIn := Packed.via (fun g => (g.size, g.padding))
  (fun (size, padding) => ⟨size, padding⟩) (fun _ => rfl)

structure FuseGetxattrOut where
  size : UInt32
  padding : UInt32
  deriving DecidableEq, Repr

instance : Packed FuseGetxattrOut := Packed.via (fun g => (g.size, g.padding))
  (fun (size, padding) => ⟨size, padding⟩) (fun _ => rfl)

/-- Fixed-size prefix of `fuse_dirent`. The variable-length name follows immediately. -/
structure FuseDirent where
  ino : UInt64
  off : UInt64
  namelen : UInt32
  typ : UInt32
  deriving DecidableEq, Repr

instance : Packed FuseDirent := Packed.via (fun d => (d.ino, d.off, d.namelen, d.typ))
  (fun (ino, off, namelen, typ) => ⟨ino, off, namelen, typ⟩) (fun _ => rfl)

def FUSE_DIRENT_HEADER_SIZE : Nat := Packed.size FuseDirent

def FUSE_ENTRY_OUT_SIZE : Nat := Packed.size FuseEntryOut

end ProxmoxFuse
