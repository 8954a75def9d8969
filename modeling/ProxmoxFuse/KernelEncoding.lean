import ProxmoxFuse.Turns

/-!
# Requests as the kernel lays them out

A reference encoder for `linux/fuse.h`: the 40-byte header, the fixed structure
of the request field by field, then terminated names or data. It does not use the
crate's structures, opcodes or sizes. `KernelRequest.request` is the request a
session should make of each of them.
-/
namespace ProxmoxFuse

def le16 (x : UInt16) : Bytes := leBytes 2 x.toNat

def le32 (x : UInt32) : Bytes := leBytes 4 x.toNat

def le64 (x : UInt64) : Bytes := leBytes 8 x.toNat

/-- What a request's header says besides its length and opcode. -/
structure KernelHeader where
  unique : UInt64
  nodeid : UInt64
  uid : UInt32
  gid : UInt32
  pid : UInt32
  totalExtlen : UInt16
  padding : UInt16

/-- `struct fuse_read_in`. -/
structure KernelRead where
  fh : UInt64
  offset : UInt64
  size : UInt32
  readFlags : UInt32
  lockOwner : UInt64
  flags : UInt32
  padding : UInt32

/-- `struct fuse_setattr_in`. -/
structure KernelSetattr where
  valid : UInt32
  padding : UInt32
  fh : UInt64
  size : UInt64
  lockOwner : UInt64
  atime : UInt64
  mtime : UInt64
  ctime : UInt64
  atimensec : UInt32
  mtimensec : UInt32
  ctimensec : UInt32
  mode : UInt32
  unused4 : UInt32
  uid : UInt32
  gid : UInt32
  unused5 : UInt32

inductive KernelRequest where
  | lookup (name : CStr)
  | forget (nlookup : UInt64)
  | getattr (flags dummy : UInt32) (fh : UInt64)
  | setattr (s : KernelSetattr)
  | statfs
  | readlink
  | mknod (mode rdev umask padding : UInt32) (name : CStr)
  | mkdir (mode umask : UInt32) (name : CStr)
  | unlink (name : CStr)
  | rmdir (name : CStr)
  | rename2 (newdir : UInt64) (flags padding : UInt32) (name newName : CStr)
  | open (flags openFlags : UInt32)
  | release (fh : UInt64) (flags releaseFlags : UInt32) (lockOwner : UInt64)
  | read (r : KernelRead)
  | write (fh offset : UInt64) (writeFlags : UInt32) (lockOwner : UInt64) (flags padding : UInt32)
      (data : Bytes)
  | create (flags mode umask openFlags : UInt32) (name : CStr)
  | readdir (r : KernelRead)
  | readdirplus (r : KernelRead)
  | listxattr (size padding : UInt32)
  | getxattr (size padding : UInt32) (name : CStr)

namespace KernelRequest

/-- `enum fuse_opcode`. -/
def opcode : KernelRequest → UInt32
  | .lookup .. => 1
  | .forget .. => 2
  | .getattr .. => 3
  | .setattr .. => 4
  | .readlink => 5
  | .mknod .. => 8
  | .mkdir .. => 9
  | .unlink .. => 10
  | .rmdir .. => 11
  | .open .. => 14
  | .read .. => 15
  | .write .. => 16
  | .statfs => 17
  | .release .. => 18
  | .getxattr .. => 22
  | .listxattr .. => 23
  | .readdir .. => 28
  | .create .. => 35
  | .readdirplus .. => 44
  | .rename2 .. => 45

def readIn (r : KernelRead) : Bytes :=
  le64 r.fh ++ (le64 r.offset ++ (le32 r.size ++ (le32 r.readFlags ++ (le64 r.lockOwner ++
    (le32 r.flags ++ le32 r.padding)))))

/-- The fixed structure, with nothing between its fields. -/
def fixed : KernelRequest → Bytes
  | .lookup _ => []
  | .forget nlookup => le64 nlookup
  | .getattr flags dummy fh => le32 flags ++ (le32 dummy ++ le64 fh)
  | .setattr s =>
      le32 s.valid ++ (le32 s.padding ++ (le64 s.fh ++ (le64 s.size ++ (le64 s.lockOwner ++
        (le64 s.atime ++ (le64 s.mtime ++ (le64 s.ctime ++ (le32 s.atimensec ++ (le32 s.mtimensec ++
          (le32 s.ctimensec ++ (le32 s.mode ++ (le32 s.unused4 ++ (le32 s.uid ++ (le32 s.gid ++
            le32 s.unused5))))))))))))))
  | .statfs => []
  | .readlink => []
  | .mknod mode rdev umask padding _ => le32 mode ++ (le32 rdev ++ (le32 umask ++ le32 padding))
  | .mkdir mode umask _ => le32 mode ++ le32 umask
  | .unlink _ => []
  | .rmdir _ => []
  | .rename2 newdir flags padding _ _ => le64 newdir ++ (le32 flags ++ le32 padding)
  | .open flags openFlags => le32 flags ++ le32 openFlags
  | .release fh flags releaseFlags lockOwner =>
      le64 fh ++ (le32 flags ++ (le32 releaseFlags ++ le64 lockOwner))
  | .read r => readIn r
  | .write fh offset writeFlags lockOwner flags padding data =>
      readIn ⟨fh, offset, UInt32.ofNat data.length, writeFlags, lockOwner, flags, padding⟩
  | .create flags mode umask openFlags _ =>
      le32 flags ++ (le32 mode ++ (le32 umask ++ le32 openFlags))
  | .readdir r => readIn r
  | .readdirplus r => readIn r
  | .listxattr size padding => le32 size ++ le32 padding
  | .getxattr size padding _ => le32 size ++ le32 padding

/-- What follows the fixed structure. -/
def tail : KernelRequest → Bytes
  | .lookup name | .mknod _ _ _ _ name | .mkdir _ _ name | .unlink name | .rmdir name
  | .create _ _ _ _ name | .getxattr _ _ name => name.toBytes ++ [0]
  | .rename2 _ _ _ name newName => name.toBytes ++ 0 :: (newName.toBytes ++ [0])
  | .write _ _ _ _ _ _ data => data
  | _ => []

def body (q : KernelRequest) : Bytes := q.fixed ++ q.tail

end KernelRequest

/-- A message with any opcode and body behind the header. -/
def kernelMessage (h : KernelHeader) (opcode : UInt32) (body : Bytes) : Bytes :=
  (le32 (UInt32.ofNat (40 + body.length)) ++ (le32 opcode ++ (le64 h.unique ++ (le64 h.nodeid ++
    (le32 h.uid ++ (le32 h.gid ++ (le32 h.pid ++ (le16 h.totalExtlen ++ le16 h.padding)))))))) ++
      body

def KernelRequest.encode (h : KernelHeader) (q : KernelRequest) : Bytes :=
  kernelMessage h q.opcode q.body

/-- The request a session makes of a message, with `buf` the buffer it was read into. -/
def KernelRequest.request (h : KernelHeader) (buf : Nat) : KernelRequest → Request
  | .lookup name => .lookup ⟨⟨h.unique⟩, h.nodeid, name.toBytes⟩
  | .forget nlookup => .forget ⟨⟨h.unique⟩, h.nodeid, nlookup⟩
  | .getattr _ _ _ => .getattr ⟨⟨h.unique⟩, h.nodeid⟩
  | .setattr s => .setattr
      { request := ⟨h.unique⟩
        inode := h.nodeid
        fh := if s.valid &&& 0x40 ≠ 0 then some s.fh else none
        toSet := ⟨s.valid &&& 0x5ff⟩
        stat :=
          { Stat.zeroed with
            stMode := s.mode
            stUid := s.uid
            stGid := s.gid
            stSize := s.size.toInt64
            stAtime := s.atime.toInt64
            stAtimeNsec := s.atimensec.toUInt64.toInt64
            stMtime := s.mtime.toInt64
            stMtimeNsec := s.mtimensec.toUInt64.toInt64
            stCtime := s.ctime.toInt64
            stCtimeNsec := s.ctimensec.toUInt64.toInt64 } }
  | .statfs => .statfs ⟨⟨h.unique⟩, h.nodeid⟩
  | .readlink => .readlink ⟨⟨h.unique⟩, h.nodeid⟩
  | .mknod mode rdev _ _ name => .mknod ⟨⟨h.unique⟩, h.nodeid, name.toBytes, mode, rdev.toUInt64⟩
  | .mkdir mode _ name => .mkdir ⟨⟨h.unique⟩, h.nodeid, name.toBytes, mode⟩
  | .unlink name => .unlink ⟨⟨h.unique⟩, h.nodeid, name.toBytes⟩
  | .rmdir name => .rmdir ⟨⟨h.unique⟩, h.nodeid, name.toBytes⟩
  | .rename2 newdir flags _ name newName => .rename
      { request := ⟨h.unique⟩
        parent := h.nodeid
        name := name.toBytes
        newParent := newdir
        newName := newName.toBytes
        flags := flags.toInt32 }
  | .open flags _ => .open ⟨⟨h.unique⟩, h.nodeid, flags.toInt32, {}⟩
  | .release fh flags _ _ => .release ⟨⟨h.unique⟩, h.nodeid, fh, flags.toInt32⟩
  | .read r => .read ⟨⟨h.unique⟩, h.nodeid, r.fh, r.size.toNat, r.offset⟩
  | .write fh offset _ _ _ _ data => .write
      { request := ⟨h.unique⟩
        inode := h.nodeid
        fh := fh
        dataOffset := 80
        size := data.length
        offset := offset
        buffer := buf }
  | .create _ mode _ _ name => .create ⟨⟨h.unique⟩, h.nodeid, name.toBytes, mode, {}⟩
  | .readdir r => .readdir ⟨some ⟨h.unique⟩, h.nodeid, r.offset, some (ReplyBuf.new r.size.toNat)⟩
  | .readdirplus r =>
      .readdirPlus ⟨some ⟨h.unique⟩, h.nodeid, r.offset, some (ReplyBuf.new r.size.toNat)⟩
  | .listxattr size _ =>
      if size = 0 then .listXAttrSize ⟨⟨h.unique⟩, h.nodeid⟩
      else .listXAttr ⟨⟨h.unique⟩, h.nodeid, size.toNat, []⟩
  | .getxattr size _ name =>
      if size = 0 then .getXAttrSize ⟨⟨h.unique⟩, h.nodeid, name.toBytes⟩
      else .getXAttr ⟨⟨h.unique⟩, h.nodeid, name.toBytes, size.toNat⟩

end ProxmoxFuse
