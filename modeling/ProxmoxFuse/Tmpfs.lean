import ProxmoxFuse.BlockFile
import ProxmoxFuse.Requests
import ProxmoxFuse.Slots

/-!
# The example file system

`examples/tmpfs/fs.rs`: a table of entries indexed by inode number, with a list of
the numbers to use again. An `InodeLookup` is the slot of the entry it refers to;
following one whose entry is gone is a crash. Its drop is an explicit call, made
where Rust makes it, on every way out of a function.

Dropping a guard can delete the entry, and with it what a directory holds, in nested
calls. `stack` is how many of them there is room for; without it there is always
enough. A run that returns with a bound is the same without it.
-/
namespace ProxmoxFuse

def ENOTDIR : Int32 := 20
def EISDIR : Int32 := 21
def EEXIST : Int32 := 17
def ENOTEMPTY : Int32 := 39
def EBADF : Int32 := 9

def S_IFMT : UInt32 := 0o170000
def S_IFDIR : UInt32 := 0o040000
def S_IFREG : UInt32 := 0o100000

def ROOT_ID : Nat := 1

def dot : OsStr := [46]

def dotdot : OsStr := [46, 46]

/-- `as_secs() as i64`. -/
def Duration.secsAsI64 (d : Duration) : Int64 := d.secs.toInt64

def Duration.nanosAsI64 (d : Duration) : Int64 := d.nanos.toUInt64.toInt64

def newStat (inode : Nat) (mode uid gid : UInt32) (now : Duration) : Stat :=
  { Stat.zeroed with
    stIno := UInt64.ofNat inode
    stMode := mode
    stUid := uid
    stGid := gid
    stMtime := now.secsAsI64
    stMtimeNsec := now.nanosAsI64
    stAtime := now.secsAsI64
    stAtimeNsec := now.nanosAsI64
    stCtime := now.secsAsI64
    stCtimeNsec := now.nanosAsI64 }

def newDirStat (inode : Nat) (now : Duration) : Stat := newStat inode (0o755 ||| S_IFDIR) 0 0 now

/-- `BTreeMap<OsString, u64>`. -/
abbrev Files := Std.ExtTreeMap OsStr Nat

inductive FsContent where
  | dir (files : Files)
  | file (data : BlockFile)

structure FsEntry where
  inode : Nat
  parent : Nat
  lookups : UInt64
  links : UInt64
  stat : Stat
  content : FsContent

/-- The last of the free inodes to be pushed comes first. -/
structure Fs where
  entries : List (Option FsEntry)
  freeInodes : List Nat

abbrev InodeLookup := Nat

namespace FsContent

def mapFiles (f : Files → Files) : FsContent → FsContent
  | .dir files => .dir (f files)
  | .file data => .file data

def fileCount : FsContent → Nat
  | .dir files => files.size
  | .file _ => 0

end FsContent

namespace Fs

def new (now : Duration) : Fs where
  entries :=
    [none, some
      { inode := ROOT_ID
        parent := ROOT_ID
        lookups := 1
        links := 1
        stat := newDirStat 1 now
        content := .dir ∅ }]
  freeInodes := []

/-- The entry in a slot, if there is one. -/
def entryAt (self : Fs) (i : Nat) : Option FsEntry := Slots.get? self.entries i

def update (self : Fs) (i : Nat) (f : FsEntry → FsEntry) : Fs :=
  { self with entries := Slots.update self.entries i f }

/-- `InodeLookup::deref`. -/
def deref (self : Fs) (node : InodeLookup) : Except Crash FsEntry :=
  match self.entryAt node with
  | some entry => .ok entry
  | none => .error .dangling

def addLookup (entry : FsEntry) : FsEntry := { entry with lookups := entry.lookups + 1 }

def subLookups (n : UInt64) (entry : FsEntry) : FsEntry :=
  { entry with lookups := entry.lookups - n }

def subLink (entry : FsEntry) : FsEntry := { entry with links := entry.links - 1 }

/-- `mem::take` of the files of a directory. -/
def takeFiles (entry : FsEntry) : FsEntry := { entry with content := .dir ∅ }

/-- Every guard counts as one lookup of its entry. -/
def lookup (self : Fs) (inode : Nat) : Except IoError InodeLookup × Fs :=
  match self.entries[inode]? with
  | some (some _) => (.ok inode, self.update inode addLookup)
  -- this inode has been deleted
  | some none => (.error (.os ENOENT), self)
  -- this inode has never been advertised to the kernel
  | none => (.error (.other s!"kernel looked up never-advertised inode: {inode}"), self)

/-- The loop of `Dir::on_drop` over the inodes of the files it took out; `forget`
drops the guard each of them is looked up through. -/
def dropFiles (forget : Fs → InodeLookup → Except Crash Fs) : List Nat → Fs → Except Crash Fs
  | [], self => .ok self
  | inode :: rest, self =>
      match self.lookup inode with
      | (.error _, self) => .ok self
      | (.ok node, self) => do
          let self ← forget (self.update node subLink) node
          dropFiles forget rest self

/-- `forget_entry`, with the number of nested calls the stack has room for. -/
def forgetEntryIn : (depth : Nat) → Fs → InodeLookup → UInt64 → Except Crash Fs
  | 0, _, _, _ => .error .stackOverflow
  | depth + 1, self, node, nlookup => do
      let entry ← self.deref node
      let self := self.update node (subLookups nlookup)
      -- there were still more lookups present, or there are hard links
      if entry.lookups > 1 then return self
      if entry.links ≠ 0 then return self
      let self ← match entry.content with
        | .dir files =>
            dropFiles (fun self node => forgetEntryIn depth self node 1) (files.toList.map (·.2))
              (self.update node takeFiles)
        | .file _ => .ok self
      if entry.inode < self.entries.length then
        return { entries := self.entries.set entry.inode none, freeInodes := entry.inode ::
          self.freeInodes }
      else .error .panic

/-- All names in all directories. -/
def fileCount (self : Fs) : Nat := Slots.total (·.content.fileCount) self.entries

/-- No lookups, no hard links: delete. Without a bound the stack has room for all the calls there
can be: before it calls itself it empties a directory, so they are no more than the names. -/
def forgetEntry (self : Fs) (node : InodeLookup) (nlookup : UInt64)
    (stack : Option Nat := none) : Except Crash Fs :=
  self.forgetEntryIn (stack.getD (self.fileCount + 1)) node nlookup

/-- `Drop for InodeLookup`. -/
def dropLookup (self : Fs) (node : InodeLookup) (stack : Option Nat := none) : Except Crash Fs :=
  self.forgetEntry node 1 stack

/-- A result whose guard goes out of scope where it is returned. -/
def leaving {α : Type} (node : InodeLookup) (r : Except IoError α × Fs)
    (stack : Option Nat := none) : Except Crash (Except IoError α × Fs) := do
  let self ← r.2.dropLookup node stack
  return (r.1, self)

def lookupAt (self : Fs) (inode : Nat) (name : OsStr) (stack : Option Nat := none) :
    Except Crash (Except IoError InodeLookup × Fs) :=
  match self.lookup inode with
  | (.error e, self) => .ok (.error e, self)
  | (.ok node, self) =>
      if name = dot then .ok (.ok node, self)
      else do
        let entry ← self.deref node
        leaving node (match entry.content with
          | .dir files =>
              if name = dotdot then self.lookup entry.parent
              else
                match files[name]? with
                | some inode => self.lookup inode
                | none => (.error (.os ENOENT), self)
          | .file _ => (.error (.os ENOTDIR), self)) stack

def forget (self : Fs) (inode : Nat) (nlookup : UInt64) (stack : Option Nat := none) :
    Except Crash (Except IoError Unit × Fs) :=
  match self.entries[inode]? with
  | some (some _) => do
      let self ← self.forgetEntry inode nlookup stack
      return (.ok (), self)
  | some none => .ok (.error (.os ENOENT), self)
  | none => .ok (.error (.other "tried to forget a never-looked-up inode"), self)

/-- A number for a new inode: the last freed, or that of a new slot. -/
def takeInode (self : Fs) : Nat × Fs :=
  match self.freeInodes with
  | inode :: rest => (inode, { self with freeInodes := rest })
  | [] => (self.entries.length, { self with entries := self.entries ++ [none] })

/-- The `Vacant` arm of `do_create`. -/
def link (self : Fs) (parentDir : InodeLookup) (name : OsStr) (mode : UInt32) (content : FsContent)
    (now : Duration) : Except Crash (InodeLookup × Fs) :=
  let (inode, self) := self.takeInode
  if inode < self.entries.length then
    let entry : FsEntry :=
      { inode
        parent := parentDir
        lookups := 0
        links := 1
        stat := { newStat 0 mode 0 0 now with stIno := UInt64.ofNat inode }
        content }
    let self := { self with entries := self.entries.set inode (some entry) }
    -- hardlink the inode into the directory
    let self := self.update parentDir fun entry =>
      { entry with content := entry.content.mapFiles (·.insert name inode) }
    .ok (inode, self.update inode addLookup)
  else .error .panic

def doCreate (self : Fs) (parent : Nat) (name : OsStr) (mode : UInt32) (content : FsContent)
    (now : Duration) (stack : Option Nat := none) :
    Except Crash (Except IoError InodeLookup × Fs) :=
  match self.lookup parent with
  | (.error e, self) => .ok (.error e, self)
  | (.ok parentDir, self) => do
      let entry ← self.deref parentDir
      match entry.content with
      | .dir files =>
          if name ∈ files then leaving parentDir (.error (.os EEXIST), self) stack
          else
            let (node, self) ← self.link parentDir name mode content now
            leaving parentDir (.ok node, self) stack
      | .file _ => leaving parentDir (.error (.os ENOTDIR), self) stack

def mkdir (self : Fs) (parent : Nat) (name : OsStr) (mode : UInt32) (now : Duration)
    (stack : Option Nat := none) : Except Crash (Except IoError InodeLookup × Fs) :=
  self.doCreate parent name (mode ||| S_IFDIR) (.dir ∅) now stack

def create (self : Fs) (parent : Nat) (name : OsStr) (mode : UInt32) (now : Duration)
    (stack : Option Nat := none) : Except Crash (Except IoError InodeLookup × Fs) := do
  let data ← BlockFile.new 4096
  self.doCreate parent name (mode ||| S_IFREG) (.file data) now stack

/-- Why an entry may not be removed. -/
def refusal (content : FsContent) (isRmdir : Bool) : Option Int32 :=
  match content with
  | .dir files =>
      if !isRmdir then some EISDIR
      else if !files.isEmpty then some ENOTEMPTY
      else none
  | .file _ => if isRmdir then some ENOTDIR else none

/-- The `Dir` arm of `unlink`, with the guards of the parent and of the entry. -/
def unlinkIn (self : Fs) (parentDir : InodeLookup) (files : Files) (name : OsStr)
    (isRmdir : Bool) (stack : Option Nat := none) : Except Crash (Except IoError Unit × Fs) :=
  match files[name]? with
  | none => leaving parentDir (.error (.os ENOENT), self) stack
  | some inode =>
      let self := self.update parentDir fun entry =>
        { entry with content := entry.content.mapFiles (·.erase name) }
      match self.lookup inode with
      | (.error e, self) => leaving parentDir (.error e, self) stack
      | (.ok node, self) => do
          let entry ← self.deref node
          match refusal entry.content isRmdir with
          | some errno =>
              let self := self.update parentDir fun entry =>
                { entry with content := entry.content.mapFiles (·.insert name inode) }
              let self ← self.dropLookup node stack
              leaving parentDir (.error (.os errno), self) stack
          | none =>
              let self ← (self.update node subLink).dropLookup node stack
              leaving parentDir (.ok (), self) stack

def unlink (self : Fs) (parent : Nat) (name : OsStr) (isRmdir : Bool)
    (stack : Option Nat := none) : Except Crash (Except IoError Unit × Fs) :=
  match self.lookup parent with
  | (.error e, self) => .ok (.error e, self)
  | (.ok parentDir, self) => do
      let entry ← self.deref parentDir
      match entry.content with
      | .dir files => self.unlinkIn parentDir files name isRmdir stack
      | .file _ => leaving parentDir (.error (.os ENOTDIR), self) stack

/-- `File::write` returns the new absolute file size, which updates the stat member. -/
def write (self : Fs) (depth : Nat) (inode : Nat) (data : Bytes) (offset : Nat)
    (stack : Option Nat := none) : Except Crash (Except IoError Unit × Fs) :=
  match self.lookup inode with
  | (.error e, self) => .ok (.error e, self)
  | (.ok node, self) => do
      let entry ← self.deref node
      match entry.content with
      | .file file =>
          let file ← file.write depth data offset
          let newSize ← file.size
          leaving node (.ok (), self.update node fun entry =>
            { entry with
              content := .file file
              stat.stSize := (UInt64.ofNat newSize).toInt64 }) stack
      | .dir _ => leaving node (.error (.os EBADF), self) stack

/-- The amount of bytes actually read, and the buffer they are at the front of. -/
def read (self : Fs) (inode : Nat) (data : Bytes) (offset : Nat) (stack : Option Nat := none) :
    Except Crash (Except IoError (Nat × Bytes) × Fs) :=
  match self.lookup inode with
  | (.error e, self) => .ok (.error e, self)
  | (.ok node, self) => do
      let entry ← self.deref node
      match entry.content with
      | .file file =>
          let got ← file.read data offset
          leaving node (.ok got, self) stack
      | .dir _ => leaving node (.error (.os EBADF), self) stack

/-- `InodeLookup::increment_lookup`. -/
def incrementLookup (self : Fs) (node : InodeLookup) : Except Crash Fs := do
  let _ ← self.deref node
  return self.update node addLookup

end Fs
end ProxmoxFuse
