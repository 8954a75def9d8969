import ProxmoxFuse.Sys

/-!
# The sparse file of the example file system

`examples/tmpfs/block_file.rs`: a vector of extents, searched by bisection. A
recursion that never ends is a stack that runs out whatever its depth.
-/
namespace ProxmoxFuse

/-- How a call ends without returning to its caller. -/
inductive Crash where
  | panic
  | stackOverflow
  /-- A reference to an entry that has been freed was followed. -/
  | dangling
  deriving DecidableEq, Repr

/-- A 64-bit word, or the panic of the overflow check. -/
def checkWord (n : Nat) : Except Crash Nat := if n < 2 ^ 64 then .ok n else .error .panic

def checkedSub (a b : Nat) : Except Crash Nat := if b ≤ a then .ok (a - b) else .error .panic

/-- `n & !mask`. -/
def clearMask (n mask : Nat) : Nat := n - (n &&& mask)

/-- `(n + mask) & !mask`. -/
def roundUp (n mask : Nat) : Nat := clearMask (n + mask) mask

theorem le_roundUp (n mask : Nat) : n ≤ roundUp n mask := by
  have masked : (n + mask) &&& mask ≤ mask := Nat.and_le_right
  simp only [roundUp, clearMask]
  omega

structure Extent where
  offset : Nat
  data : Bytes
  deriving DecidableEq, Repr

inductive SearchBias where
  | low
  | high
  deriving DecidableEq, Repr

structure BlockFile where
  extents : List Extent
  blockSize : Nat
  blockMask : Nat
  maxExtentSize : Nat
  deriving DecidableEq, Repr

def Extent.end (e : Extent) : Nat := e.offset + e.data.length

/-- `Vec::resize` with zeroes. -/
def resizeZero (data : Bytes) (len : Nat) : Bytes :=
  data.take len ++ List.replicate (len - data.length) 0

theorem resizeZero_length (data : Bytes) (len : Nat) : (resizeZero data len).length = len := by
  simp only [resizeZero, List.length_append, List.length_take, List.length_replicate]
  omega

namespace BlockFile

/-- Panics if `block_size` is not a power of two. -/
def new (blockSize : Nat) : Except Crash BlockFile :=
  if ¬ blockSize.isPowerOfTwo then .error .panic
  else do
    let blockMask ← checkedSub (blockSize * 2 % 2 ^ 64) 1
    return { extents := [], blockSize, blockMask, maxExtentSize := clearMask 0x7FFFFFFF blockMask }

def size (self : BlockFile) : Except Crash Nat :=
  match self.extents.getLast? with
  | none => .ok 0
  | some e => checkWord e.end

/-- The loop of `search_extent` between `a` and `b`, which are outside of what is left. -/
def searchLoop (extents : List Extent) (offset : Nat) :
    Nat → (a b : Int) → -1 ≤ a → b ≤ extents.length → Except (Int × Int) Nat
  | 0, a, b, _, _ => .error (a, b)
  | rounds + 1, a, b, low, high =>
      if more : b - a > 1 then
        let i := a + (b - a) / 2
        have inside : a < i ∧ i < b := by omega
        have entry : i.toNat < extents.length := by omega
        let entryOfs := extents[i.toNat].offset
        if offset < entryOfs then searchLoop extents offset rounds a i low (by omega)
        else if offset > entryOfs then searchLoop extents offset rounds i b (by omega) high
        else .ok i.toNat
      else .error (a, b)

/-- A binary search which allows choosing whether the lower or higher key should
be returned when there's no exact match. Every round narrows the gap by one at
least, so there are no more of them than extents. -/
def searchExtent (self : BlockFile) (offset : Nat) (bias : SearchBias) : Except Int Nat :=
  match searchLoop self.extents offset self.extents.length (-1) self.extents.length (by omega)
    (by omega) with
  | .ok i => .ok i
  | .error (a, b) =>
      .error (match bias with
        | .low => a
        | .high => b)

def getReadExtents (self : BlockFile) (offset : Nat) : Except Crash (List Extent) :=
  match self.searchExtent offset .low with
  | .ok index => .ok (self.extents.drop index)
  | .error beg => do
      if beg < -1 then .error .panic
      let beg := (max beg 0).toNat
      let size ← self.size
      if beg > size then .error .panic
      return self.extents.drop beg

/-- The loop of `read`: `left` bytes of the buffer are still to be filled, `out`
has been put in front of them. -/
def readExtents : List Extent → (left offset : Nat) → (out : Bytes) → Except Crash Bytes
  | [], left, _, out => .ok (out ++ List.replicate left 0)
  | extent :: rest, left, offset, out =>
      if extent.offset ≤ offset then do
        -- in the first one we may be starting in the middle
        let inside := offset - extent.offset
        if inside > extent.data.length then .error .panic
        let data := (extent.data.drop inside).take left
        readExtents rest (left - data.length) (← checkWord (offset + data.length)) (out ++ data)
      else
        let emptyLen := extent.offset - offset
        if emptyLen > left then .ok (out ++ List.replicate left 0)
        else do
          let data := extent.data.take (left - emptyLen)
          readExtents rest (left - emptyLen - data.length)
            (← checkWord (extent.offset + data.length))
            (out ++ List.replicate emptyLen 0 ++ data)

/-- The number of bytes read, and the buffer with them at its front. -/
def read (self : BlockFile) (buf : Bytes) (offset : Nat) : Except Crash (Nat × Bytes) := do
  let «end» ← checkWord (offset + buf.length)
  let size ← self.size
  let returnSize ← (if «end» > size then checkedSub size offset
      else .ok buf.length : Except Crash Nat)
  let filled ← readExtents (← self.getReadExtents offset) returnSize offset []
  return (returnSize, filled ++ buf.drop returnSize)

def truncate (self : BlockFile) (size : Nat) : Except Crash BlockFile :=
  match self.searchExtent size .low with
  | .ok index => .ok { self with extents := self.extents.take index }
  | .error index =>
      if index = -1 then .ok { self with extents := [] }
      else
        match self.extents[index.toNat]? with
        | none => .error .panic
        | some extent => do
            let kept ← checkedSub size extent.offset
            return { self with
              extents :=
                self.extents.take index.toNat ++ [{ extent with data := extent.data.take kept }] }

/-- The end of `write`: the extents behind the one that was written follow it.
`extent` is as resized and written up to `inEnd`. -/
def moveTrailing (self : BlockFile) (front : List Extent) (extent : Extent) (inEnd : Nat)
    (further : List Extent) : Except Crash BlockFile := do
  let curEnd ← checkWord extent.end
  match further with
  | [] => return { self with extents := front ++ [extent] }
  | next :: rest =>
      if curEnd ≤ extent.offset then return { self with extents := front ++ extent :: next :: rest }
      let overOffset ← checkWord (extent.offset + inEnd)
      let overBy ← checkedSub overOffset next.offset
      let _ ← checkWord (overBy + self.blockMask)
      let toMoveEnd := roundUp overBy self.blockMask
      let toMoveSize := toMoveEnd - overBy
      let kept ← checkedSub extent.data.length toMoveSize
      if toMoveSize > next.data.length then .error .panic
      let nextOffset ← checkWord (next.offset + toMoveEnd)
      if toMoveEnd > next.data.length then .error .panic
      return { self with
        extents :=
          front ++ { extent with data := extent.data.take kept ++ next.data.take toMoveSize } ::
            { offset := nextOffset, data := next.data.drop toMoveEnd } :: rest }

/-- The part of `write` that stays within the maximum extent size. -/
def writeWithin (self : BlockFile) (front : List Extent) (extent : Extent) (further : List Extent)
    (buf : Bytes) (inOfs : Nat) : Except Crash BlockFile :=
  let inEnd := inOfs + buf.length
  if fits : inEnd ≤ extent.data.length then
    -- we're not resizing the extent, so just write and leave
    .ok { self with extents := front ++ { extent with data := copyAt extent.data inOfs buf fits } ::
      further }
  else
    let neededEnd := if further.isEmpty then inEnd else roundUp inEnd self.blockMask
    have needed : inEnd ≤ neededEnd := by
      simp only [neededEnd]
      split
      · exact le_rfl
      · exact le_roundUp inEnd self.blockMask
    have resized : inOfs + buf.length ≤ (resizeZero extent.data neededEnd).length := by
      rw [resizeZero_length]
      exact needed
    let data := copyAt (resizeZero extent.data neededEnd) inOfs buf resized
    self.moveTrailing front { extent with data } inEnd further

/-- `for chunk in buf.chunks(max)`, with `write` for one chunk. No chunk is empty,
so there are no more of them than bytes. -/
def writeChunks (write : BlockFile → Bytes → Nat → Except Crash BlockFile) (max : Nat) :
    Nat → Bytes → BlockFile → Nat → Except Crash BlockFile
  | 0, _, self, _ => .ok self
  | rounds + 1, buf, self, offset =>
      if buf.isEmpty then .ok self
      else do
        let chunk := buf.take max
        let self ← write self chunk offset
        writeChunks write max rounds (buf.drop max) self (← checkWord (offset + chunk.length))

/-- `depth` is how many nested calls the stack has room for. -/
def write : (depth : Nat) → BlockFile → Bytes → Nat → Except Crash BlockFile
  | 0, _, _, _ => .error .stackOverflow
  | depth + 1, self, buf, offset => do
      let _ ← checkWord (buf.length + self.blockMask)
      if roundUp buf.length self.blockMask > self.maxExtentSize then
        -- `chunks` refuses a size of zero
        if self.maxExtentSize = 0 then .error .panic
        else writeChunks (write depth) self.maxExtentSize buf.length buf self offset
      else
        let found := self.searchExtent offset .low
        if found = .error (-1) then
          -- this is the very first extent to be written
          let blockOfs := clearMask offset self.blockMask
          let _ ← checkWord (offset + buf.length)
          let data := List.replicate (offset - blockOfs) 0 ++ buf
          return { self with extents := self.extents ++ [{ offset := blockOfs, data }] }
        else
          let index := match found with
            | .ok index => index
            | .error index => index.toNat
          match self.extents.drop index with
          | [] => .error .panic
          | extent :: further =>
              let inOfs ← checkedSub offset extent.offset
              let inEnd ← checkWord (inOfs + buf.length)
              let _ ← checkWord (inEnd + self.blockMask)
              if roundUp inEnd self.blockMask > self.maxExtentSize then
                let possible ← checkedSub self.maxExtentSize inOfs
                if possible > buf.length then .error .panic
                let self ← write depth self (buf.take possible) offset
                write depth self (buf.drop possible) (← checkWord (offset + possible))
              else self.writeWithin (self.extents.take index) extent further buf inOfs

end BlockFile
end ProxmoxFuse
