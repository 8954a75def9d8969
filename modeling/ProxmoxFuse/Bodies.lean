import ProxmoxFuse.Protocol
import ProxmoxFuse.Returns

/-!
# Reading message bodies

The fixed structure at the front of a body and the NUL-terminated names behind
it. Each reader has an equation without slices, so that no caller has to look
at the bounds again, and a round trip against the bytes a sender would lay out.
-/
namespace ProxmoxFuse

/-- An `OsStr` on Unix is a byte string. -/
abbrev OsStr := Bytes

/-- A C string, kept without its terminator. -/
structure CStr where
  toBytes : Bytes
  noNul : 0 ∉ toBytes
  deriving DecidableEq

def CStr.toBytesWithNul (self : CStr) : Bytes := self.toBytes ++ [0]

/-- `CString::new` refuses interior NUL bytes. -/
def CStr.new (bytes : Bytes) : Option CStr :=
  if h : 0 ∉ bytes then some ⟨bytes, h⟩ else none

theorem zero_not_mem_takeWhile (data : Bytes) : 0 ∉ data.takeWhile (· != 0) := by
  intro member
  have kept := List.mem_takeWhile_imp member
  exact absurd kept (by decide)

def CStr.fromBytesUntilNul (data : Bytes) : Option CStr :=
  if 0 ∈ data then some ⟨data.takeWhile (· != 0), zero_not_mem_takeWhile data⟩ else none

/-- Stops at the first NUL byte; uses the whole slice if no NUL is present. -/
def nameFromBytes (data : Bytes) : OsStr :=
  match CStr.fromBytesUntilNul data with
  | some c => c.toBytes
  | none => data

/-- Read a `repr(C)` struct from a byte buffer. -/
def readBody (α : Type) [Packed α] (body : Bytes) : Except Fault α :=
  let want := Packed.size α
  let got := body.length
  if got < want then
    .error (.io (.other s!"truncated FUSE message: expected {want} bytes, got {got}"))
  else .ok (Packed.ofBytes body)

/-- The name that follows a fixed-size header `α`. -/
def nameAfter (α : Type) [Packed α] (data : Bytes) : Except Fault OsStr :=
  if data.length < Packed.size α then
    .error (.io (.other "truncated FUSE message: body too short for name"))
  else do
    let rest ← sliceFrom data (Packed.size α)
    return nameFromBytes rest

/-- Two NUL-separated names after a fixed-size header (used by rename2). -/
def twoNamesAfter (α : Type) [Packed α] (data : Bytes) : Except Fault (OsStr × OsStr) :=
  if data.length < Packed.size α then
    .error (.io (.other "truncated FUSE message: body too short for names"))
  else do
    let rest ← sliceFrom data (Packed.size α)
    match rest.findIdx? (· == 0) with
    | none => .error (.io (.other "malformed FUSE rename: missing NUL separator between names"))
    | some nulPos =>
        let first ← sliceTo rest nulPos
        let second ← sliceFrom rest (nulPos + 1)
        return (first, nameFromBytes second)

theorem nameFromBytes_eq (data : Bytes) : nameFromBytes data = data.takeWhile (· != 0) := by
  by_cases member : 0 ∈ data
  · simp only [nameFromBytes, CStr.fromBytesUntilNul, member, if_true]
  · have whole : data.takeWhile (· != 0) = data := by
      apply List.takeWhile_eq_self_iff.mpr
      intro b hb
      have : b ≠ 0 := fun zero => member (zero ▸ hb)
      simpa using this
    simp only [nameFromBytes, CStr.fromBytesUntilNul, member, if_false, whole]

theorem nameFromBytes_noNul (data : Bytes) : 0 ∉ nameFromBytes data := by
  rw [nameFromBytes_eq]
  exact zero_not_mem_takeWhile data

/-- A terminated name is read back whatever follows its terminator. -/
theorem nameFromBytes_terminated {name : Bytes} (noNul : 0 ∉ name) (rest : Bytes) :
    nameFromBytes (name ++ 0 :: rest) = name := by
  have keep : ∀ b ∈ name, (b != 0) = true := by
    intro b hb
    have : b ≠ 0 := fun zero => noNul (zero ▸ hb)
    simpa using this
  rw [nameFromBytes_eq, List.takeWhile_append_of_pos keep]
  simp

theorem readBody_eq {α : Type} [Packed α] {body : Bytes} (h : Packed.size α ≤ body.length) :
    readBody α body = .ok (Packed.ofBytes body) := by
  simp [readBody, Nat.not_lt.mpr h]

theorem readBody_ok {α : Type} [Packed α] {body : Bytes} {a : α} (read : readBody α body = .ok a) :
    a = Packed.ofBytes body := by
  simp only [readBody] at read
  split at read
  · cases read
  · cases read
    rfl

/-- The struct a sender laid out is the struct the reader returns. -/
@[simp] theorem readBody_bytes {α : Type} [Packed α] (a : α) (rest : Bytes) :
    readBody α (Packed.bytes a ++ rest) = .ok a := by
  rw [readBody_eq (by simp), Packed.ofBytes_append]

theorem nameAfter_eq {α : Type} [Packed α] {data : Bytes} (h : Packed.size α ≤ data.length) :
    nameAfter α data = .ok (nameFromBytes (data.drop (Packed.size α))) := by
  simp only [nameAfter, Nat.not_lt.mpr h, if_false, sliceFrom, h, if_true]
  rfl

@[simp] theorem nameAfter_bytes {α : Type} [Packed α] (a : α) (rest : Bytes) :
    nameAfter α (Packed.bytes a ++ rest) = .ok (nameFromBytes rest) := by
  rw [nameAfter_eq (by simp), List.drop_left' (Packed.bytes_length a)]

theorem findIdx_terminated {name : Bytes} (noNul : 0 ∉ name) (rest : Bytes) :
    (name ++ 0 :: rest).findIdx? (· == 0) = some name.length := by
  have miss : name.findIdx? (· == 0) = none := by
    apply List.findIdx?_eq_none_iff.mpr
    intro b hb
    have : b ≠ 0 := fun zero => noNul (zero ▸ hb)
    simpa using this
  rw [List.findIdx?_append, miss, List.findIdx?_cons]
  simp

/-- The position that is found is the first terminator. -/
theorem findIdx_first {data : Bytes} {n : Nat} (found : data.findIdx? (· == 0) = some n) :
    n < data.length ∧ 0 ∈ data ∧ 0 ∉ data.take n := by
  obtain ⟨inside, zero, before⟩ := List.findIdx?_eq_some_iff_getElem.mp found
  have member : 0 ∈ data := by
    have there := List.getElem_mem inside
    rwa [beq_iff_eq.mp zero] at there
  refine ⟨inside, member, fun early => ?_⟩
  obtain ⟨j, bound, same⟩ := List.mem_take_iff_getElem.mp early
  have miss := before j (Nat.lt_of_lt_of_le bound (Nat.min_le_left _ _))
  simp [same] at miss

/-- Two terminated names behind a struct are split at their terminators. -/
theorem twoNamesAfter_bytes {α : Type} [Packed α] (a : α) {first second : Bytes}
    (noNul : 0 ∉ first) (noNul' : 0 ∉ second) (rest : Bytes) :
    twoNamesAfter α (Packed.bytes a ++ (first ++ 0 :: (second ++ 0 :: rest))) =
      .ok (first, second) := by
  have enough : ¬ (Packed.bytes a ++ (first ++ 0 :: (second ++ 0 :: rest))).length <
      Packed.size α := by
    simp
  have tail : sliceFrom (Packed.bytes a ++ (first ++ 0 :: (second ++ 0 :: rest))) (Packed.size α) =
      .ok (first ++ 0 :: (second ++ 0 :: rest)) := by
    rw [sliceFrom, if_pos (Nat.not_lt.mp enough), List.drop_left' (Packed.bytes_length a)]
  have front : sliceTo (first ++ 0 :: (second ++ 0 :: rest)) first.length = .ok first := by
    rw [sliceTo, if_pos (by simp), List.take_left]
  have back : sliceFrom (first ++ 0 :: (second ++ 0 :: rest)) (first.length + 1) =
      .ok (second ++ 0 :: rest) := by
    rw [sliceFrom, if_pos (by simp), List.drop_append]
    simp
  rw [twoNamesAfter, if_neg enough, tail]
  simp only [bind, Except.bind, findIdx_terminated noNul, front, back,
    nameFromBytes_terminated noNul', pure, Except.pure]

/-! ### No reader panics -/

/-- A computation whose errors are all `io::Error`s. -/
abbrev NoPanic {α : Type} (x : Except Fault α) : Prop := Raises (· ≠ Fault.panic) x

theorem NoPanic.io {α : Type} {e : IoError} : NoPanic (.error (.io e) : Except Fault α) :=
  Raises.error (by simp)

theorem sliceTo_noPanic {bs : Bytes} {n : Nat} (inside : n ≤ bs.length) :
    NoPanic (sliceTo bs n) := by
  rw [sliceTo, if_pos inside]
  exact Raises.ok

theorem sliceFrom_noPanic {bs : Bytes} {n : Nat} (inside : n ≤ bs.length) :
    NoPanic (sliceFrom bs n) := by
  rw [sliceFrom, if_pos inside]
  exact Raises.ok

theorem readBody_noPanic (α : Type) [Packed α] (body : Bytes) : NoPanic (readBody α body) :=
  Raises.ite (fun _ => NoPanic.io) fun _ => Raises.ok

theorem nameAfter_noPanic (α : Type) [Packed α] (data : Bytes) : NoPanic (nameAfter α data) := by
  refine Raises.ite (fun _ => NoPanic.io) fun long => ?_
  exact Raises.bind (sliceFrom_noPanic (Nat.not_lt.mp long)) fun _ _ => Raises.ok

theorem twoNamesAfter_noPanic (α : Type) [Packed α] (data : Bytes) :
    NoPanic (twoNamesAfter α data) := by
  refine Raises.ite (fun _ => NoPanic.io) fun long => ?_
  refine Raises.bind (sliceFrom_noPanic (Nat.not_lt.mp long)) fun rest _ => ?_
  cases found : rest.findIdx? (· == 0) with
  | none => exact NoPanic.io
  | some nulPos =>
      have inside := (findIdx_first found).1
      refine Raises.bind (sliceTo_noPanic (Nat.le_of_lt inside)) fun _ _ => ?_
      exact Raises.bind (sliceFrom_noPanic inside) fun _ _ => Raises.ok

/-! ### When a reader fails -/

theorem readBody_fails (α : Type) [Packed α] (body : Bytes) :
    Fails (readBody α body) ↔ body.length < Packed.size α := by
  rw [readBody, Fails.ite_iff]
  simp

theorem nameAfter_fails (α : Type) [Packed α] (data : Bytes) :
    Fails (nameAfter α data) ↔ data.length < Packed.size α := by
  by_cases short : data.length < Packed.size α
  · simp [nameAfter, short]
  · simp [nameAfter_eq (Nat.not_lt.mp short), short]

/-- Two names can be read unless there is no terminator behind the struct. -/
theorem twoNamesAfter_fails (α : Type) [Packed α] (data : Bytes) :
    Fails (twoNamesAfter α data) ↔ data.length < Packed.size α ∨ 0 ∉ data.drop (Packed.size α) := by
  by_cases short : data.length < Packed.size α
  · simp [twoNamesAfter, short]
  · have tail : sliceFrom data (Packed.size α) = .ok (data.drop (Packed.size α)) := by
      rw [sliceFrom, if_pos (Nat.not_lt.mp short)]
    simp only [twoNamesAfter, short, if_false, tail, bind, Except.bind, false_or]
    generalize data.drop (Packed.size α) = rest
    cases found : rest.findIdx? (· == 0) with
    | none =>
        have absent := List.findIdx?_eq_none_iff.mp found
        refine iff_of_true ⟨_, rfl⟩ fun member => ?_
        simpa using absent 0 member
    | some nulPos =>
        obtain ⟨inside, member, -⟩ := findIdx_first found
        simp only [sliceTo, sliceFrom, if_pos (Nat.le_of_lt inside),
          if_pos (Nat.succ_le_of_lt inside)]
        simp [member]

/-! ### Names that were read -/

theorem nameAfter_noNul (α : Type) [Packed α] (data : Bytes) :
    Returns (0 ∉ ·) (nameAfter α data) := by
  refine Returns.ite (fun _ => Returns.error) fun _ => ?_
  exact Returns.bind fun rest _ => Returns.pure (nameFromBytes_noNul rest)

theorem twoNamesAfter_noNul (α : Type) [Packed α] (data : Bytes) :
    Returns (fun names => 0 ∉ names.1 ∧ 0 ∉ names.2) (twoNamesAfter α data) := by
  refine Returns.ite (fun _ => Returns.error) fun _ => ?_
  refine Returns.bind fun rest _ => ?_
  cases found : rest.findIdx? (· == 0) with
  | none => exact Returns.error
  | some nulPos =>
      obtain ⟨inside, -, clean⟩ := findIdx_first found
      refine Returns.bind fun first front => Returns.bind fun second _ => ?_
      rw [sliceTo, if_pos (Nat.le_of_lt inside)] at front
      cases front
      exact Returns.pure ⟨clean, nameFromBytes_noNul second⟩

end ProxmoxFuse
