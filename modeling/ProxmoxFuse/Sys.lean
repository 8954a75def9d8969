import ProxmoxFuse.Bodies

/-!
# Public types and the directory reply buffer

`sys.rs`: entry parameters, open flags and the buffer that packs directory
entries for the kernel. The copies into the buffer carry the bounds without
which the slices of the source would panic.

Build modes: a plain sum or difference of machine words panics in a debug build and
wraps in a release build. The library is modelled as released (`sliceTotal` is its one
sum that can wrap), the example file system with overflow checks (`checkWord` and
`checkedSub`). Its counts of lookups and links are atomic, and wrap in every build.
-/
namespace ProxmoxFuse

/-- Timeouts are floating point numbers in the source; only `split_timeout`
looks at them, so the model takes them as any type with that one function. -/
class Timeout (τ : Type) where
  splitTimeout : τ → UInt64 × UInt32

export Timeout (splitTimeout)

/-- Timeouts that are already seconds and nanoseconds. -/
instance : Timeout (UInt64 × UInt32) := ⟨id⟩

structure EntryParam (τ : Type) where
  inode : UInt64
  generation : UInt64
  attr : Stat
  attrTimeout : τ
  entryTimeout : τ

def entryOutFromParam {τ : Type} [Timeout τ] (entry : EntryParam τ) : FuseEntryOut :=
  let (attrValid, attrValidNsec) := splitTimeout entry.attrTimeout
  let (entryValid, entryValidNsec) := splitTimeout entry.entryTimeout
  { nodeid := entry.inode
    generation := entry.generation
    entryValid
    attrValid
    entryValidNsec
    attrValidNsec
    attr := FuseAttr.fromStat entry.attr }

inductive ReplyBufState where
  | ok
  | full
  deriving DecidableEq, Repr

structure FuseFileInfo where
  directIo : Bool := false
  keepCache : Bool := false
  nonseekable : Bool := false
  cacheReaddir : Bool := false
  noflush : Bool := false
  deriving DecidableEq, Repr

def FuseFileInfo.openFlagsOut (self : FuseFileInfo) : FopenFlags :=
  ((((BitFlags.empty.set FopenFlags.DIRECT_IO self.directIo).set
    FopenFlags.KEEP_CACHE self.keepCache).set
    FopenFlags.NONSEEKABLE self.nonseekable).set
    FopenFlags.CACHE_DIR self.cacheReaddir).set
    FopenFlags.NOFLUSH self.noflush

/-- Convert `st_mode` to the `DT_*` dirent type used in the FUSE wire format. -/
def modeToDirentType (mode : UInt32) : UInt32 := (mode >>> 12) &&& 0xf

/-! ### Packing directory entries -/

/-- `(x + 7) & !7`: clear the three low bits. -/
def fuseDirentAlign (x : Nat) : Nat := (x + 7) / 8 * 8

def fuseDirentSize (namelen : Nat) : Nat := fuseDirentAlign (FUSE_DIRENT_HEADER_SIZE + namelen)

def fuseDirentplusSize (namelen : Nat) : Nat :=
  fuseDirentAlign (FUSE_ENTRY_OUT_SIZE + FUSE_DIRENT_HEADER_SIZE + namelen)

/-- `buf[off..off + bs.len()].copy_from_slice(bs)`, with the bound it needs not to panic. -/
def copyAt (buf : Bytes) (off : Nat) (bs : Bytes) (_fits : off + bs.length ≤ buf.length) : Bytes :=
  buf.take off ++ bs ++ buf.drop (off + bs.length)

@[simp] theorem copyAt_length (buf : Bytes) (off : Nat) (bs : Bytes)
    (fits : off + bs.length ≤ buf.length) :
    (copyAt buf off bs fits).length = buf.length := by
  simp only [copyAt, List.length_append, List.length_take, List.length_drop]
  omega

/-- Writing right behind what was written before extends it. -/
theorem copyAt_extend {buf bs : Bytes} {off : Nat} (front rest : Bytes)
    (fits : off + bs.length ≤ buf.length) (split : buf = front ++ rest) (len : front.length = off) :
    copyAt buf off bs fits = (front ++ bs) ++ rest.drop bs.length := by
  subst split len
  simp [copyAt, ← List.drop_drop]

theorem fuseDirentAlign_ge (x : Nat) : x ≤ fuseDirentAlign x := by
  simp only [fuseDirentAlign]
  omega

/-- The entry header in front of a plus entry is itself aligned. -/
theorem fuseDirentplusSize_eq (n : Nat) :
    fuseDirentplusSize n = FUSE_ENTRY_OUT_SIZE + fuseDirentSize n := by
  have entry : FUSE_ENTRY_OUT_SIZE = 128 := rfl
  simp only [fuseDirentplusSize, fuseDirentSize, fuseDirentAlign, entry]
  omega

theorem nameEnd_le_direntSize (n : Nat) : FUSE_DIRENT_HEADER_SIZE + n ≤ fuseDirentSize n :=
  fuseDirentAlign_ge _

/-- Write a dirent header, the name and zero-padding at the front of `buf`. -/
def writeDirent (buf : Bytes) (dirent : FuseDirent) (nameBytes : Bytes)
    (fits : fuseDirentSize nameBytes.length ≤ buf.length) : Bytes × Nat :=
  let entrySize := fuseDirentSize nameBytes.length
  let nameEnd := FUSE_DIRENT_HEADER_SIZE + nameBytes.length
  have named : nameEnd ≤ entrySize := nameEnd_le_direntSize nameBytes.length
  have header : 0 + (Packed.bytes dirent).length ≤ buf.length := by
    rw [Packed.bytes_length]
    simp only [nameEnd, entrySize, FUSE_DIRENT_HEADER_SIZE] at named
    omega
  let headed := copyAt buf 0 (Packed.bytes dirent) header
  have name : nameEnd ≤ headed.length := by
    rw [copyAt_length]
    omega
  let filled := copyAt headed FUSE_DIRENT_HEADER_SIZE nameBytes name
  have pad : nameEnd + (List.replicate (entrySize - nameEnd) (0 : UInt8)).length ≤
      filled.length := by
    rw [copyAt_length, copyAt_length, List.length_replicate]
    omega
  (copyAt filled nameEnd (List.replicate (entrySize - nameEnd) 0) pad, entrySize)

/-- The bytes of one packed entry. -/
def direntRecord (dirent : FuseDirent) (nameBytes : Bytes) : Bytes :=
  let nameEnd := FUSE_DIRENT_HEADER_SIZE + nameBytes.length
  Packed.bytes dirent ++ nameBytes ++ List.replicate (fuseDirentSize nameBytes.length - nameEnd) 0

theorem direntRecord_length (dirent : FuseDirent) (nameBytes : Bytes) :
    (direntRecord dirent nameBytes).length = fuseDirentSize nameBytes.length := by
  have fits := fuseDirentAlign_ge (FUSE_DIRENT_HEADER_SIZE + nameBytes.length)
  simp only [direntRecord, List.length_append, Packed.bytes_length, List.length_replicate]
  simp only [fuseDirentSize, FUSE_DIRENT_HEADER_SIZE] at fits ⊢
  omega

/-- The three copies lay down exactly one record. -/
theorem writeDirent_eq (buf : Bytes) (dirent : FuseDirent) (nameBytes : Bytes)
    (fits : fuseDirentSize nameBytes.length ≤ buf.length) :
    writeDirent buf dirent nameBytes fits =
      (direntRecord dirent nameBytes ++ buf.drop (fuseDirentSize nameBytes.length),
        fuseDirentSize nameBytes.length) := by
  have named := nameEnd_le_direntSize nameBytes.length
  have total : FUSE_DIRENT_HEADER_SIZE + nameBytes.length +
      (fuseDirentSize nameBytes.length - (FUSE_DIRENT_HEADER_SIZE + nameBytes.length)) =
      fuseDirentSize nameBytes.length := by omega
  simp only [writeDirent]
  rw [copyAt_extend (Packed.bytes dirent ++ nameBytes)
    ((buf.drop FUSE_DIRENT_HEADER_SIZE).drop nameBytes.length)]
  · simp only [direntRecord, List.drop_drop, List.length_replicate, total]
  · apply copyAt_extend _ _ _ _ (Packed.bytes_length dirent)
    refine (copyAt_extend [] buf _ rfl rfl).trans ?_
    rw [Packed.bytes_length]
    rfl
  · rw [List.length_append, Packed.bytes_length]
    rfl

/-- Used to correctly fill and reply the buffer for readdir and readdirplus. -/
structure ReplyBuf where
  buffer : Bytes
  filled : Nat
  filled_le : filled ≤ buffer.length

namespace ReplyBuf

def new (size : Nat) : ReplyBuf := ⟨List.replicate size 0, 0, Nat.zero_le _⟩

def filledData (self : ReplyBuf) : Bytes := self.buffer.take self.filled

/-- Store a rewritten tail of the buffer back, `n` more bytes of it being filled. -/
def advance (self : ReplyBuf) (tail : Bytes) (n : Nat) (h : n ≤ tail.length) : ReplyBuf where
  buffer := self.buffer.take self.filled ++ tail
  filled := self.filled + n
  filled_le := by
    rw [List.length_append, List.length_take_of_le self.filled_le]
    omega

/-- The check against `Full` leaves room for the padded entry in the tail. -/
theorem tail_fits {self : ReplyBuf} {n : Nat} (h : ¬ self.filled + n > self.buffer.length) :
    n ≤ (self.buffer.drop self.filled).length := by
  rw [List.length_drop]
  omega

theorem plus_tail_fits {self : ReplyBuf} {n : Nat}
    (h : ¬ self.filled + fuseDirentplusSize n > self.buffer.length) :
    fuseDirentSize n ≤ ((self.buffer.drop self.filled).drop FUSE_ENTRY_OUT_SIZE).length := by
  have room := tail_fits h
  rw [fuseDirentplusSize_eq] at room
  rw [List.length_drop]
  omega

theorem writeDirent_le (tail : Bytes) (dirent : FuseDirent) (nameBytes : Bytes)
    (fits : fuseDirentSize nameBytes.length ≤ tail.length) :
    (writeDirent tail dirent nameBytes fits).2 ≤
      (writeDirent tail dirent nameBytes fits).1.length := by
  rw [writeDirent_eq, List.length_append, direntRecord_length]
  exact Nat.le_add_right _ _

/-- Add a readdir entry (plain `fuse_dirent`). -/
def addReaddir (self : ReplyBuf) (name : CStr) (attr : Stat) (next : UInt64) :
    ReplyBufState × ReplyBuf :=
  let nameBytes := name.toBytes
  let entrySize := fuseDirentSize nameBytes.length
  if full : self.filled + entrySize > self.buffer.length then (.full, self)
  else
    let dirent : FuseDirent :=
      { ino := attr.stIno
        off := next
        namelen := UInt32.ofNat nameBytes.length
        typ := modeToDirentType attr.stMode }
    let tail := self.buffer.drop self.filled
    let written := writeDirent tail dirent nameBytes (tail_fits full)
    (.ok, self.advance written.1 written.2 (writeDirent_le tail dirent nameBytes (tail_fits full)))

theorem entryOut_writeDirent_le (tail : Bytes) (entryOut : FuseEntryOut) (dirent : FuseDirent)
    (nameBytes : Bytes) (fits : fuseDirentSize nameBytes.length ≤ tail.length) :
    FUSE_ENTRY_OUT_SIZE + (writeDirent tail dirent nameBytes fits).2 ≤
      (Packed.bytes entryOut ++ (writeDirent tail dirent nameBytes fits).1).length := by
  rw [List.length_append, Packed.bytes_length]
  exact Nat.add_le_add_left (writeDirent_le tail dirent nameBytes fits) _

/-- Add a readdirplus entry (`fuse_entry_out` + `fuse_dirent`). -/
def addReaddirPlus {τ : Type} [Timeout τ] (self : ReplyBuf) (name : CStr) (entry : EntryParam τ)
    (next : UInt64) : ReplyBufState × ReplyBuf :=
  let nameBytes := name.toBytes
  let entrySize := fuseDirentplusSize nameBytes.length
  if full : self.filled + entrySize > self.buffer.length then (.full, self)
  else
    let entryOut := entryOutFromParam entry
    let dirent : FuseDirent :=
      { ino := entry.attr.stIno
        off := next
        namelen := UInt32.ofNat nameBytes.length
        typ := modeToDirentType entry.attr.stMode }
    -- `buf[..FUSE_ENTRY_OUT_SIZE]` is overwritten and the dirent goes behind it
    let tail := (self.buffer.drop self.filled).drop FUSE_ENTRY_OUT_SIZE
    let written := writeDirent tail dirent nameBytes (plus_tail_fits full)
    (.ok, self.advance (Packed.bytes entryOut ++ written.1) (FUSE_ENTRY_OUT_SIZE + written.2)
      (entryOut_writeDirent_le tail entryOut dirent nameBytes (plus_tail_fits full)))

end ReplyBuf
end ProxmoxFuse
