import ProxmoxFuse.Records
import ProxmoxFuse.ReplyPlan

/-!
# Directory listings

What `add_entry` packs, the kernel unpacks. Both kinds of listing are streams of
padded records: a `struct fuse_dirent` with the name behind it, and in front of it
a `struct fuse_entry_out` for READDIRPLUS.
-/
namespace ProxmoxFuse

/-! ### The kernel's side -/

/-- The fields of `struct fuse_dirent`: `ino`, `off`, `namelen`, `type`. -/
abbrev WireDirent := UInt64 × UInt64 × UInt32 × UInt32

/-- The fields of `struct fuse_attr`, from `ino` to `flags`. -/
abbrev WireAttr := UInt64 × UInt64 × UInt64 × UInt64 × UInt64 × UInt64 × UInt32 × UInt32 × UInt32 ×
  UInt32 × UInt32 × UInt32 × UInt32 × UInt32 × UInt32 × UInt32

/-- The fields of `struct fuse_entry_out`: `nodeid`, `generation`, `entry_valid`,
`attr_valid`, `entry_valid_nsec`, `attr_valid_nsec`, `attr`. -/
abbrev WireEntry := UInt64 × UInt64 × UInt64 × UInt64 × UInt32 × UInt32 × WireAttr

def direntLayout : Records.Layout UInt8 where
  headerSize := 24
  headed := by decide
  align := 8
  aligned := by decide
  bodyLen header := (Packed.ofBytes header : WireDirent).2.2.1.toNat

def direntplusLayout : Records.Layout UInt8 where
  headerSize := 128 + 24
  headed := by decide
  align := 8
  aligned := by decide
  bodyLen header := (Packed.ofBytes (header.drop 128) : WireDirent).2.2.1.toNat

structure KernelDirent where
  ino : UInt64
  off : UInt64
  type : UInt32
  name : Bytes

structure KernelDirentplus where
  nodeid : UInt64
  generation : UInt64
  entryValid : UInt64 × UInt32
  attrValid : UInt64 × UInt32
  attr : WireAttr
  dirent : KernelDirent

def KernelDirent.ofRecord (header name : Bytes) : KernelDirent :=
  let (ino, off, _, type) := (Packed.ofBytes header : WireDirent)
  { ino, off, type, name }

def KernelDirentplus.ofRecord (header name : Bytes) : KernelDirentplus :=
  let (nodeid, generation, entryValid, attrValid, entryValidNsec, attrValidNsec, attr) :=
    (Packed.ofBytes header : WireEntry)
  { nodeid
    generation
    entryValid := (entryValid, entryValidNsec)
    attrValid := (attrValid, attrValidNsec)
    attr
    dirent := .ofRecord (header.drop 128) name }

/-! ### The crate's side -/

/-- The arguments of one `Readdir::add_entry`. -/
structure ReaddirEntry where
  name : OsStr
  stat : Stat
  next : UInt64

/-- The arguments of one `ReaddirPlus::add_entry`. -/
structure ReaddirPlusEntry (τ : Type) where
  name : OsStr
  stat : Stat
  next : UInt64
  generation : UInt64
  attrTimeout : τ
  entryTimeout : τ

/-- The attributes of an entry on the wire. -/
def Stat.wireAttr (s : Stat) : WireAttr :=
  (s.stIno, s.stSize.toUInt64, s.stBlocks.toUInt64, (max s.stAtime 0).toUInt64,
    (max s.stMtime 0).toUInt64, (max s.stCtime 0).toUInt64, (max s.stAtimeNsec 0).toUInt64.toUInt32,
    (max s.stMtimeNsec 0).toUInt64.toUInt32, (max s.stCtimeNsec 0).toUInt64.toUInt32, s.stMode,
    s.stNlink.toUInt32, s.stUid, s.stGid, s.stRdev.toUInt32, s.stBlksize.toUInt64.toUInt32, 0)

/-- What the kernel should see of an entry: the file type bits are the top four of the mode. -/
def ReaddirEntry.kernel (e : ReaddirEntry) : KernelDirent :=
  { ino := e.stat.stIno, off := e.next, type := (e.stat.stMode >>> 12) &&& 0xf, name := e.name }

def ReaddirPlusEntry.kernel {τ : Type} [Timeout τ] (e : ReaddirPlusEntry τ) : KernelDirentplus where
  nodeid := e.stat.stIno
  generation := e.generation
  entryValid := splitTimeout e.entryTimeout
  attrValid := splitTimeout e.attrTimeout
  attr := e.stat.wireAttr
  dirent :=
    { ino := e.stat.stIno, off := e.next, type := (e.stat.stMode >>> 12) &&& 0xf, name := e.name }

/-- The filled part of the buffer. -/
def ReaddirCommon.data (r : ReaddirCommon) : Bytes :=
  (r.replyBuffer.map ReplyBuf.filledData).getD []

/-- The outcomes of one `add_entry` on a buffer. -/
inductive Added (l : Records.Layout UInt8) (r : ReaddirCommon) (buf : ReplyBuf)
    (header name : Bytes) :
    Except Fault ReplyBufState × ReaddirCommon → Prop where
  | invalid (e : IoError) (nul : 0 ∈ name) : Added l r buf header name (.error (.io e), r)
  | full (valid : 0 ∉ name)
      (short : buf.buffer.length < buf.filledData.length + l.extent name.length) :
      Added l r buf header name (.ok .full, r)
  | ok (valid : 0 ∉ name) (room : buf.filledData.length + l.extent name.length ≤ buf.buffer.length)
      (buf' : ReplyBuf) (size : buf'.buffer.length = buf.buffer.length)
      (data : buf'.filledData = buf.filledData ++ l.pack 0 header name) :
      Added l r buf header name (.ok .ok, { r with replyBuffer := some buf' })

namespace ReplyBuf

theorem filledData_length (self : ReplyBuf) : self.filledData.length = self.filled :=
  List.length_take_of_le self.filled_le

/-- A tail that starts with a record is stored back with the record filled. -/
theorem advance_record (self : ReplyBuf) {tail record : Bytes} (rest : Bytes) {n : Nat}
    (h : n ≤ tail.length) (split : tail = record ++ rest) (len : record.length = n)
    (same : tail.length = (self.buffer.drop self.filled).length) :
    (self.advance tail n h).buffer.length = self.buffer.length ∧
      (self.advance tail n h).filledData = self.filledData ++ record := by
  have before := self.filledData_length
  have bound := self.filled_le
  constructor
  · simp only [advance, List.length_append, same, List.length_drop, List.length_take]
    omega
  · subst split len
    simp only [filledData, advance] at before ⊢
    rw [← List.append_assoc, List.take_left' (by rw [List.length_append, before])]

end ReplyBuf

/-- Both methods check the name first, then offer the entry to the buffer. -/
theorem added_of_buffer {l : Records.Layout UInt8} {r : ReaddirCommon} {buf : ReplyBuf}
    (filling : r.replyBuffer = some buf) {header name : Bytes}
    {out : Except Fault ReplyBufState × ReaddirCommon}
    (offer : CStr → ReplyBuf → ReplyBufState × ReplyBuf)
    (refuse : ∀ e, nameToCstring name = .error e → out = (.error (.io e), r))
    (pass : ∀ c, nameToCstring name = .ok c → out = r.withBuffer (offer c))
    (full : ∀ valid, buf.buffer.length < buf.filledData.length + l.extent name.length →
      offer ⟨name, valid⟩ buf = (.full, buf))
    (ok : ∀ valid, buf.filledData.length + l.extent name.length ≤ buf.buffer.length →
      (offer ⟨name, valid⟩ buf).1 = .ok ∧
      (offer ⟨name, valid⟩ buf).2.buffer.length = buf.buffer.length ∧
        (offer ⟨name, valid⟩ buf).2.filledData = buf.filledData ++ l.pack 0 header name) :
    Added l r buf header name out := by
  by_cases nul : 0 ∈ name
  · have refused : nameToCstring name = .error
        (.other "tried to reply with invalid file name") := by
      simp [nameToCstring, CStr.new, nul]
    rw [refuse _ refused]
    exact .invalid _ nul
  · have made : nameToCstring name = .ok ⟨name, nul⟩ := by
      simp [nameToCstring, CStr.new, nul]
    rw [pass _ made, ReaddirCommon.withBuffer, filling]
    dsimp only
    by_cases room : buf.filledData.length + l.extent name.length ≤ buf.buffer.length
    · obtain ⟨accepted, size, data⟩ := ok nul room
      rw [accepted]
      exact .ok nul room _ size data
    · have short := Nat.lt_of_not_le room
      have same : { r with replyBuffer := some buf } = r := by rw [← filling]
      rw [full nul short]
      dsimp only
      rw [same]
      exact .full nul short

/-! ### The two kinds of entries -/

def ReaddirEntry.header (e : ReaddirEntry) : Bytes :=
  Packed.bytes (FuseDirent.mk e.stat.stIno e.next (UInt32.ofNat e.name.length)
    (modeToDirentType e.stat.stMode))

theorem ReaddirEntry.framed (e : ReaddirEntry) (short : e.name.length < 2 ^ 32) :
    direntLayout.Framed e.header e.name where
  size := Packed.bytes_length _
  states := by
    have fields : (Packed.ofBytes e.header : WireDirent) =
        (e.stat.stIno, e.next, UInt32.ofNat e.name.length, modeToDirentType e.stat.stMode) :=
      Packed.ofBytes_bytes (α := WireDirent) _
    simp only [direntLayout, fields]
    exact UInt32.toNat_ofNat_of_lt' short

theorem ReaddirEntry.ofRecord_header (e : ReaddirEntry) :
    KernelDirent.ofRecord e.header e.name = e.kernel := by
  have fields : (Packed.ofBytes e.header : WireDirent) =
      (e.stat.stIno, e.next, UInt32.ofNat e.name.length, modeToDirentType e.stat.stMode) :=
    Packed.ofBytes_bytes (α := WireDirent) _
  simp only [KernelDirent.ofRecord, fields]
  rfl

theorem ReplyBuf.addReaddir_full (self : ReplyBuf) (name : CStr) (attr : Stat) (next : UInt64)
    (short : self.buffer.length < self.filledData.length +
      direntLayout.extent name.toBytes.length) :
    self.addReaddir name attr next = (.full, self) := by
  rw [self.filledData_length] at short
  exact dif_pos short

theorem ReaddirEntry.pack_length (e : ReaddirEntry) :
    (direntLayout.pack 0 e.header e.name).length = direntLayout.extent e.name.length :=
  direntRecord_length _ _

theorem ReaddirEntry.writeDirent_pack (e : ReaddirEntry) (tail : Bytes)
    (fits : fuseDirentSize e.name.length ≤ tail.length) :
    writeDirent tail ⟨e.stat.stIno, e.next, UInt32.ofNat e.name.length,
      modeToDirentType e.stat.stMode⟩ e.name
        fits =
      (direntLayout.pack 0 e.header e.name ++ tail.drop (direntLayout.extent e.name.length),
        direntLayout.extent e.name.length) :=
  writeDirent_eq _ _ _ _

/-- An entry that fits is appended as one record. -/
theorem ReplyBuf.addReaddir_ok (self : ReplyBuf) (e : ReaddirEntry) (valid : 0 ∉ e.name)
    (room : self.filledData.length + direntLayout.extent e.name.length ≤ self.buffer.length) :
    (self.addReaddir ⟨e.name, valid⟩ e.stat e.next).1 = .ok ∧
      (self.addReaddir ⟨e.name, valid⟩ e.stat e.next).2.buffer.length = self.buffer.length ∧
      (self.addReaddir ⟨e.name, valid⟩ e.stat e.next).2.filledData =
        self.filledData ++ direntLayout.pack 0 e.header e.name := by
  rw [self.filledData_length] at room
  have fits : ¬ self.filled + fuseDirentSize e.name.length > self.buffer.length :=
    Nat.not_lt.mpr room
  have tail := ReplyBuf.tail_fits fits
  have written := e.writeDirent_pack (self.buffer.drop self.filled) tail
  rw [ReplyBuf.addReaddir, dif_neg fits]
  refine ⟨rfl, self.advance_record _ (ReplyBuf.writeDirent_le _ _ _ tail)
    (congrArg Prod.fst written) ?_ ?_⟩
  · rw [e.pack_length, written]
  · have extent : fuseDirentSize e.name.length = direntLayout.extent e.name.length := rfl
    rw [written, List.length_append, e.pack_length, List.length_drop]
    omega

theorem ReaddirEntry.added (r : ReaddirCommon) (buf : ReplyBuf) (filling : r.replyBuffer = some buf)
    (e : ReaddirEntry) :
    Added direntLayout r buf e.header e.name (Readdir.addEntry r e.name e.stat e.next) := by
  refine added_of_buffer filling (fun name buf => buf.addReaddir name e.stat e.next) ?_ ?_ ?_ ?_
  · intro error refused
    simp only [Readdir.addEntry, refused]
  · intro c made
    simp only [Readdir.addEntry, made]
  · intro valid short
    exact buf.addReaddir_full _ e.stat e.next short
  · intro valid room
    exact buf.addReaddir_ok e valid room

section plus
variable {τ : Type} [Timeout τ]

def ReaddirPlusEntry.param (e : ReaddirPlusEntry τ) : EntryParam τ where
  inode := e.stat.stIno
  generation := e.generation
  attr := e.stat
  attrTimeout := e.attrTimeout
  entryTimeout := e.entryTimeout

def ReaddirPlusEntry.header (e : ReaddirPlusEntry τ) : Bytes :=
  Packed.bytes (entryOutFromParam e.param) ++ (ReaddirEntry.mk e.name e.stat e.next).header

theorem ReaddirPlusEntry.header_drop (e : ReaddirPlusEntry τ) :
    e.header.drop 128 = (ReaddirEntry.mk e.name e.stat e.next).header :=
  List.drop_left' (Packed.bytes_length _)

theorem ReaddirPlusEntry.framed (e : ReaddirPlusEntry τ) (short : e.name.length < 2 ^ 32) :
    direntplusLayout.Framed e.header e.name where
  size := by
    rw [ReaddirPlusEntry.header, List.length_append, Packed.bytes_length]
    exact congrArg (128 + ·) ((ReaddirEntry.mk e.name e.stat e.next).framed short).size
  states := by
    have plain := ((ReaddirEntry.mk e.name e.stat e.next).framed short).states
    rw [← e.header_drop] at plain
    exact plain

theorem ReaddirPlusEntry.ofRecord_header (e : ReaddirPlusEntry τ) :
    KernelDirentplus.ofRecord e.header e.name = e.kernel := by
  have wire : Packed.bytes (entryOutFromParam e.param) = Packed.bytes (α := WireEntry)
      (e.stat.stIno, e.generation, (splitTimeout e.entryTimeout).1, (splitTimeout e.attrTimeout).1,
        (splitTimeout e.entryTimeout).2, (splitTimeout e.attrTimeout).2, e.stat.wireAttr) := rfl
  have dirent := (ReaddirEntry.mk e.name e.stat e.next).ofRecord_header
  simp only [KernelDirentplus.ofRecord, e.header_drop, dirent]
  rw [ReaddirPlusEntry.header, wire, Packed.ofBytes_append]
  rfl

theorem direntplus_pack (e : ReaddirPlusEntry τ) :
    direntplusLayout.pack 0 e.header e.name = Packed.bytes (entryOutFromParam e.param) ++
      direntLayout.pack 0 (ReaddirEntry.mk e.name e.stat e.next).header e.name := by
  have extent : direntplusLayout.extent e.name.length = 128 + direntLayout.extent e.name.length :=
    fuseDirentplusSize_eq e.name.length
  have padding : direntplusLayout.extent e.name.length -
      (direntplusLayout.headerSize + e.name.length) =
      direntLayout.extent e.name.length - (direntLayout.headerSize + e.name.length) := by
    simp only [direntplusLayout, direntLayout] at extent ⊢
    omega
  simp only [Records.Layout.pack, padding, ReaddirPlusEntry.header, List.append_assoc]

theorem ReplyBuf.addReaddirPlus_full (self : ReplyBuf) (name : CStr) (entry : EntryParam τ)
    (next : UInt64) (short : self.buffer.length < self.filledData.length +
      direntplusLayout.extent name.toBytes.length) :
    self.addReaddirPlus name entry next = (.full, self) := by
  rw [self.filledData_length] at short
  exact dif_pos short

theorem ReplyBuf.addReaddirPlus_ok (self : ReplyBuf) {name : Bytes} (valid : 0 ∉ name)
    (entry : EntryParam τ) (next : UInt64)
    (room : self.filledData.length + direntplusLayout.extent name.length ≤ self.buffer.length) :
    (self.addReaddirPlus ⟨name, valid⟩ entry next).1 = .ok ∧
      (self.addReaddirPlus ⟨name, valid⟩ entry next).2.buffer.length = self.buffer.length ∧
      (self.addReaddirPlus ⟨name, valid⟩ entry next).2.filledData =
        self.filledData ++ (Packed.bytes (entryOutFromParam entry) ++
          direntLayout.pack 0 (ReaddirEntry.mk name entry.attr next).header name) := by
  rw [self.filledData_length] at room
  have fits : ¬ self.filled + fuseDirentplusSize name.length > self.buffer.length :=
    Nat.not_lt.mpr room
  have tail := ReplyBuf.plus_tail_fits fits
  have written := (ReaddirEntry.mk name entry.attr next).writeDirent_pack
    ((self.buffer.drop self.filled).drop FUSE_ENTRY_OUT_SIZE) tail
  have length := (ReaddirEntry.mk name entry.attr next).pack_length
  have front : (Packed.bytes (entryOutFromParam entry)).length = FUSE_ENTRY_OUT_SIZE :=
    Packed.bytes_length _
  rw [ReplyBuf.addReaddirPlus, dif_neg fits]
  refine ⟨rfl, self.advance_record (((self.buffer.drop self.filled).drop FUSE_ENTRY_OUT_SIZE).drop
    (direntLayout.extent name.length)) (ReplyBuf.entryOut_writeDirent_le _ _ _ _ tail) ?_ ?_ ?_⟩
  · rw [List.append_assoc]
    exact congrArg (Packed.bytes (entryOutFromParam entry) ++ ·.1) written
  · rw [List.length_append, length, front]
    exact congrArg (FUSE_ENTRY_OUT_SIZE + ·.2) written.symm
  · have extent : fuseDirentSize name.length = direntLayout.extent name.length := rfl
    have whole := ReplyBuf.tail_fits fits
    have wrote := congrArg (·.1.length) written
    rw [fuseDirentplusSize_eq] at whole
    simp only [List.length_append, length, front, List.length_drop] at whole wrote ⊢
    omega

theorem ReaddirPlusEntry.added (r : ReaddirCommon) (buf : ReplyBuf)
    (filling : r.replyBuffer = some buf) (e : ReaddirPlusEntry τ) :
    Added direntplusLayout r buf e.header e.name
      (ReaddirPlus.addEntry r e.name e.stat e.next e.generation e.attrTimeout e.entryTimeout) := by
  refine added_of_buffer filling (fun name buf => buf.addReaddirPlus name e.param e.next)
    ?_ ?_ ?_ ?_
  · intro error refused
    simp only [ReaddirPlus.addEntry, refused]
  · intro c made
    simp only [ReaddirPlus.addEntry, made]
    rfl
  · intro valid short
    exact buf.addReaddirPlus_full _ e.param e.next short
  · intro valid room
    rw [direntplus_pack]
    exact buf.addReaddirPlus_ok valid e.param e.next room

end plus

/-! ### Whole listings -/

/-- One way of listing a directory: `add_entry` with its arguments, the layout of the
records it packs, and what the kernel should read of an entry. -/
structure Lister (γ κ : Type) where
  add : ReaddirCommon → γ → Except Fault ReplyBufState × ReaddirCommon
  name : γ → OsStr
  header : γ → Bytes
  kernel : γ → κ
  layout : Records.Layout UInt8
  ofRecord : Bytes → Bytes → κ
  eight : layout.align = 8
  framed : ∀ c, (name c).length < 2 ^ 32 → layout.Framed (header c) (name c)
  ofRecord_header : ∀ c, ofRecord (header c) (name c) = kernel c
  added : ∀ r buf, r.replyBuffer = some buf → ∀ c, Added layout r buf (header c) (name c) (add r c)

def readdirLister : Lister ReaddirEntry KernelDirent where
  add r e := Readdir.addEntry r e.name e.stat e.next
  name := ReaddirEntry.name
  header := ReaddirEntry.header
  kernel := ReaddirEntry.kernel
  layout := direntLayout
  ofRecord := KernelDirent.ofRecord
  eight := rfl
  framed := ReaddirEntry.framed
  ofRecord_header := ReaddirEntry.ofRecord_header
  added := ReaddirEntry.added

def readdirplusLister (τ : Type) [Timeout τ] : Lister (ReaddirPlusEntry τ) KernelDirentplus where
  add r e := ReaddirPlus.addEntry r e.name e.stat e.next e.generation e.attrTimeout e.entryTimeout
  name := ReaddirPlusEntry.name
  header := ReaddirPlusEntry.header
  kernel := ReaddirPlusEntry.kernel
  layout := direntplusLayout
  ofRecord := KernelDirentplus.ofRecord
  eight := rfl
  framed := ReaddirPlusEntry.framed
  ofRecord_header := ReaddirPlusEntry.ofRecord_header
  added := ReaddirPlusEntry.added

namespace Lister
variable {γ κ : Type} (k : Lister γ κ)

/-- The request after a sequence of `add_entry` calls. -/
def after (r : ReaddirCommon) (calls : List γ) : ReaddirCommon :=
  calls.foldl (fun r c => (k.add r c).2) r

/-- The calls that returned `Ok(Ok)`. -/
def accepted (r : ReaddirCommon) : List γ → List γ
  | [] => []
  | c :: calls =>
      match k.add r c with
      | (.ok .ok, r) => c :: accepted r calls
      | (_, r) => accepted r calls

/-- What the kernel makes of a reply: the entries, and the bytes left after them. -/
def kernelParse (data : Bytes) : List κ × Bytes :=
  ((k.layout.parse data).1.map fun record => k.ofRecord record.1 record.2, (k.layout.parse data).2)

end Lister

/-- A listing of `size` bytes decodes to exactly the entries that were accepted. -/
structure Listed {γ κ : Type} (k : Lister γ κ) (guard : RequestGuard) (size : Nat)
    (start : ReaddirCommon) (calls : List γ) : Prop where
  decoded : k.kernelParse (k.after start calls).data = ((k.accepted start calls).map k.kernel, [])
  sent : ∀ host, ∃ made, ((k.after start calls).reply host).2.log = host.log ++ made ∧
    (∀ a ∈ made, a.error = 0 → a.unique = guard.unique ∧ a.payload = (k.after start calls).data) ∧
    (16 + (k.after start calls).data.length < 2 ^ 32 → ∃ a ∈ made, a.error = 0)
  -- every record is padded with zeros
  padded : (k.after start calls).data =
    (k.accepted start calls).flatMap fun c => k.layout.pack 0 (k.header c) (k.name c)
  aligned : 8 ∣ (k.after start calls).data.length
  bounded : (k.after start calls).data.length ≤ size
  -- one call more
  invalid : ∀ c, 0 ∈ k.name c → ∃ e, k.add (k.after start calls) c =
    (.error (.io e), k.after start calls)
  full : ∀ c, 0 ∉ k.name c → (k.add (k.after start calls) c).1 =
    if size < (k.after start calls).data.length + k.layout.extent (k.name c).length then .ok .full
      else .ok .ok
  refused : ∀ c, (k.add (k.after start calls) c).1 ≠ .ok .ok →
    (k.add (k.after start calls) c).2 = k.after start calls

/-- A listing whose buffer is still open. -/
structure Filling (guard : RequestGuard) (size : Nat) (r : ReaddirCommon) : Prop where
  request : r.request = some guard
  buffer : ∃ buf, r.replyBuffer = some buf ∧ buf.buffer.length = size

theorem new_filling (guard : RequestGuard) (inode : UInt64) (size : Nat) (offset : UInt64) :
    Filling guard size (ReaddirCommon.new guard inode size offset) where
  request := rfl
  buffer := ⟨ReplyBuf.new size, rfl, List.length_replicate⟩

theorem ReaddirCommon.data_eq {r : ReaddirCommon} {buf : ReplyBuf}
    (filling : r.replyBuffer = some buf) :
    r.data = buf.filledData := by
  rw [ReaddirCommon.data, filling]
  rfl

section listings
variable {γ κ : Type} (k : Lister γ κ) {guard : RequestGuard} {size : Nat} {r : ReaddirCommon}

theorem Filling.data_length (f : Filling guard size r) : r.data.length ≤ size := by
  obtain ⟨buf, filling, length⟩ := f.buffer
  rw [ReaddirCommon.data_eq filling, buf.filledData_length, ← length]
  exact buf.filled_le

theorem Filling.add (f : Filling guard size r) (c : γ) : Filling guard size (k.add r c).2 := by
  obtain ⟨buf, filling, length⟩ := f.buffer
  have view := k.added r buf filling c
  generalize k.add r c = out at view
  cases view with
  | invalid e nul => exact f
  | full valid short => exact f
  | ok valid room buf' same data => exact ⟨f.request, buf', rfl, same.trans length⟩

theorem Filling.after (f : Filling guard size r) (calls : List γ) :
    Filling guard size (k.after r calls) := by
  induction calls generalizing r with
  | nil => exact f
  | cons c calls ih => exact ih (f.add k c)

/-- The accepted entries fit, and their records follow what was filled before. -/
theorem Filling.packed (f : Filling guard size r) (calls : List γ) :
    (k.after r calls).data =
        r.data ++ (k.accepted r calls).flatMap (fun c => k.layout.pack 0 (k.header c) (k.name c)) ∧
      ∀ c ∈ k.accepted r calls, (k.name c).length < size := by
  induction calls generalizing r with
  | nil => simp [Lister.after, Lister.accepted]
  | cons c calls ih =>
      obtain ⟨buf, filling, length⟩ := f.buffer
      have tail := ih (f.add k c)
      have view := k.added r buf filling c
      simp only [Lister.after, List.foldl_cons, Lister.accepted] at tail ⊢
      generalize k.add r c = out at view tail
      cases view with
      | invalid e nul => exact tail
      | full valid short => exact tail
      | ok valid room buf' same data =>
          obtain ⟨packed, short⟩ := tail
          have before := ReaddirCommon.data_eq filling
          have now : ReaddirCommon.data { r with replyBuffer := some buf' } =
              r.data ++ k.layout.pack 0 (k.header c) (k.name c) := data.trans (by rw [before])
          refine ⟨?_, ?_⟩
          · rw [packed, now, List.flatMap_cons, List.append_assoc]
          · intro c' member
            rcases List.mem_cons.mp member with rfl | later
            · have headed := k.layout.headed
              have fits := k.layout.le_extent (k.name c').length
              omega
            · exact short c' later

/-- What `reply` sends as a success is the filled part of the buffer. -/
theorem Filling.reply_log (f : Filling guard size r) (host : Host) :
    ∃ made, (r.reply host).2.log = host.log ++ made ∧
      (∀ a ∈ made, a.error = 0 → a.unique = guard.unique ∧ a.payload = r.data) ∧
      (16 + r.data.length < 2 ^ 32 → ∃ a ∈ made, a.error = 0) := by
  obtain ⟨buf, filling, length⟩ := f.buffer
  have plan : r.replyPlan = .armed r.data := by
    rw [ReaddirCommon.replyPlan, f.request, filling, ReaddirCommon.data_eq filling]
  have unique : (r.request.map RequestGuard.unique).getD 0 = guard.unique := by
    rw [f.request]
    rfl
  refine ⟨(Plan.armed r.data).attempts guard.unique host.next host.second, ?_,
    Plan.armed_success ..⟩
  rw [r.reply_run host, plan, unique]
  rfl

/-- A call on an open listing is refused without effect, or packs one more record. -/
theorem Filling.add_cases (f : Filling guard size r) (c : γ) :
    (0 ∈ k.name c → ∃ e, k.add r c = (.error (.io e), r)) ∧
    (0 ∉ k.name c → (k.add r c).1 =
      if size < r.data.length + k.layout.extent (k.name c).length then .ok .full else .ok .ok) ∧
    ((k.add r c).1 ≠ .ok .ok → (k.add r c).2 = r) := by
  obtain ⟨buf, filling, length⟩ := f.buffer
  have view := k.added r buf filling c
  rw [ReaddirCommon.data_eq filling, ← length]
  generalize k.add r c = out at view
  cases view with
  | invalid e nul => exact ⟨fun _ => ⟨e, rfl⟩, fun valid => absurd nul valid, fun _ => rfl⟩
  | full valid short =>
      exact ⟨fun nul => absurd nul valid, fun _ => (if_pos short).symm, fun _ => rfl⟩
  | ok valid room buf' same data =>
      exact ⟨fun nul => absurd nul valid, fun _ => (if_neg (Nat.not_lt.mpr room)).symm,
        fun other => absurd rfl other⟩

/-- From an empty buffer the calls leave exactly the records of the accepted entries. -/
theorem Filling.listed (f : Filling guard size r) (empty : r.data = []) (small : size ≤ 2 ^ 32)
    (calls : List γ) :
    Listed k guard size r calls := by
  obtain ⟨packed, short⟩ := f.packed k calls
  rw [empty, List.nil_append] at packed
  have framed : ∀ c ∈ k.accepted r calls, k.layout.Framed (k.header c) (k.name c) := fun c member =>
    k.framed c (Nat.lt_of_lt_of_le (short c member) small)
  have filling := f.after k calls
  have aligned := (Records.Layout.flatMap_length 0 _ framed).1
  have parsed := Records.Layout.parse_flatMap 0 _ framed
  refine ⟨?_, filling.reply_log, packed, ?_, filling.data_length,
    fun c => (filling.add_cases k c).1, fun c => (filling.add_cases k c).2.1,
      fun c => (filling.add_cases k c).2.2⟩
  · rw [Lister.kernelParse, packed, parsed]
    simp only [List.map_map, Function.comp_def, k.ofRecord_header]
  · rwa [packed, ← k.eight]

end listings

/-- Listings decode to the accepted entries, whatever is requested and added. -/
theorem listings_decode (τ : Type) [Timeout τ] (guard : RequestGuard) (inode : UInt64)
    (size : UInt32) (offset : UInt64) (plain : List ReaddirEntry)
    (plus : List (ReaddirPlusEntry τ)) :
    Listed readdirLister guard size.toNat (ReaddirCommon.new guard inode size.toNat offset) plain ∧
      Listed (readdirplusLister τ) guard size.toNat
        (ReaddirCommon.new guard inode size.toNat offset) plus := by
  have start := new_filling guard inode size.toNat offset
  have empty : (ReaddirCommon.new guard inode size.toNat offset).data = [] := rfl
  have small : size.toNat ≤ 2 ^ 32 := Nat.le_of_lt size.toNat_lt
  exact ⟨start.listed readdirLister empty small plain,
    start.listed (readdirplusLister τ) empty small plus⟩

end ProxmoxFuse
