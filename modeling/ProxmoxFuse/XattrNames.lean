import ProxmoxFuse.ReplyPlan
import ProxmoxFuse.Terminated

/-!
# Lists of attribute names

`ListXAttr` collects names, each followed by a NUL byte, and the receiver of its
reply cuts them apart at these bytes. Both safe ways of adding a name append the
same bytes, but only a `CStr` promises that the name has no NUL byte of its own.
-/
namespace ProxmoxFuse

/-- Bytes are appended whole, or the list is full. -/
theorem ListXAttr.addBytesWithZero_eq (r : ListXAttr) (bytes : Bytes) :
    r.addBytesWithZero bytes = if r.response.length + bytes.length ≤ r.size then
      (.ok, { r with response := r.response ++ bytes }) else (.full, r) := by
  by_cases room : r.response.length + bytes.length ≤ r.size
  · simp [ListXAttr.addBytesWithZero, ListXAttr.checkAdd, room]
  · simp [ListXAttr.addBytesWithZero, ListXAttr.checkAdd, room]

/-- The terminator that one call adds is the terminator that the other call expects. -/
theorem ListXAttr.addBytesWithoutZero_eq (r : ListXAttr) (name : Bytes) :
    r.addBytesWithoutZero name = r.addBytesWithZero (name ++ [0]) := by
  have length : (name ++ [0]).length = name.length + 1 := List.length_append
  rw [ListXAttr.addBytesWithoutZero, ListXAttr.addBytesWithZero, length, List.append_assoc]

/-- The safe calls that add a name. -/
inductive NameCall where
  | add (name : OsStr)
  | addCString (name : CStr)

namespace NameCall

def name : NameCall → Bytes
  | .add name => name
  | .addCString name => name.toBytes

def run (r : ListXAttr) : NameCall → ReplyBufState × ListXAttr
  | .add name => r.add name
  | .addCString name => r.addCString name

/-- Both calls append the name and its terminator, if there is room for them. -/
theorem run_eq (r : ListXAttr) (c : NameCall) :
    c.run r = if r.response.length + (c.name.length + 1) ≤ r.size then
      (.ok, { r with response := r.response ++ (c.name ++ [0]) }) else (.full, r) := by
  have terminated : c.run r = r.addBytesWithZero (c.name ++ [0]) := by
    cases c with
    | add name => exact r.addBytesWithoutZero_eq name
    | addCString name => rfl
  rw [terminated, r.addBytesWithZero_eq, List.length_append]
  rfl

end NameCall

/-- The list after some calls. -/
def ListXAttr.afterNames (r : ListXAttr) (calls : List NameCall) : ListXAttr :=
  calls.foldl (fun r c => (c.run r).2) r

/-- The names whose calls returned `Ok`, in order. -/
def ListXAttr.acceptedNames : ListXAttr → List NameCall → List Bytes
  | _, [] => []
  | r, c :: calls =>
      if (c.run r).1 = .ok then c.name :: acceptedNames (c.run r).2 calls
        else acceptedNames (c.run r).2 calls

/-- A list of names is read back as the names that were accepted. -/
structure NamesListed (start : ListXAttr) (calls : List NameCall) : Prop where
  decoded : Terminated.split 0 (start.afterNames calls).response = (start.acceptedNames calls, [])
  sent : ∀ host, ∃ made, ((start.afterNames calls).reply host).2.log = host.log ++ made ∧
    (∀ a ∈ made, a.error = 0 → a.unique = start.request.unique ∧
      a.payload = (start.afterNames calls).response) ∧
    (16 + (start.afterNames calls).response.length < 2 ^ 32 → ∃ a ∈ made, a.error = 0)
  -- one call more
  full : ∀ c : NameCall, (c.run (start.afterNames calls)).1 = .full ↔
    start.size - (start.afterNames calls).response.length < c.name.length + 1
  alike : ∀ (r : ListXAttr) (name : Bytes) (clean : 0 ∉ name),
    r.add name = r.addCString ⟨name, clean⟩

section names
variable (r : ListXAttr) (calls : List NameCall)

/-- The size and the guard of a list stay; its response is what was accepted behind what was there.
-/
theorem afterNames_eq :
    r.afterNames calls =
      { r with response := r.response ++ Terminated.join 0 (r.acceptedNames calls) } := by
  induction calls generalizing r with
  | nil => simp [ListXAttr.afterNames, ListXAttr.acceptedNames, Terminated.join]
  | cons c calls ih =>
      have tail : r.afterNames (c :: calls) = (c.run r).2.afterNames calls := rfl
      rw [tail, ih, ListXAttr.acceptedNames, c.run_eq r]
      split
      · simp [Terminated.join]
      · simp

/-- A name is accepted where its call finds room. -/
theorem mem_acceptedNames {name : Bytes} :
    name ∈ r.acceptedNames calls ↔ ∃ before c rest, calls = before ++ c :: rest ∧ c.name = name ∧
      (r.afterNames before).response.length + (name.length + 1) ≤ r.size := by
  induction calls generalizing r with
  | nil => simp [ListXAttr.acceptedNames]
  | cons c calls ih =>
      have size : (c.run r).2.size = r.size := by
        rw [c.run_eq r]
        split <;> rfl
      -- the name is accepted by the first call or, from there on, by a later one
      have cases_of : name ∈ r.acceptedNames (c :: calls) ↔
          (c.name = name ∧ r.response.length + (name.length + 1) ≤ r.size) ∨
            name ∈ (c.run r).2.acceptedNames calls := by
        rw [ListXAttr.acceptedNames, c.run_eq r]
        split
        · next room =>
            rw [if_pos rfl, List.mem_cons]
            refine or_congr_left ⟨?_, fun first => first.1.symm⟩
            rintro rfl
            exact ⟨rfl, room⟩
        · next short =>
            rw [if_neg (by simp)]
            refine (or_iff_right ?_).symm
            rintro ⟨rfl, room⟩
            exact short room
      rw [cases_of, ih, size]
      constructor
      · rintro (⟨same, room⟩ | ⟨before, c', rest, rfl, same, room⟩)
        · exact ⟨[], c, calls, rfl, same, room⟩
        · exact ⟨c :: before, c', rest, rfl, same, room⟩
      · rintro ⟨before, c', rest, split, same, room⟩
        cases before with
        | nil =>
            cases split
            exact .inl ⟨same, room⟩
        | cons first before =>
            cases split
            exact .inr ⟨before, c', rest, rfl, same, room⟩

/-- Names are read back as they were accepted exactly if no name with a NUL byte of its
own is passed to `add` while there is room for it. -/
theorem names_listed_iff (guard : RequestGuard) (inode : UInt64) (size : Nat) :
    NamesListed (ListXAttr.new guard inode size) calls ↔
      ∀ before name rest, calls = before ++ .add name :: rest → 0 ∈ name →
        size < ((ListXAttr.new guard inode size).afterNames before).response.length +
          (name.length + 1) := by
  have after := afterNames_eq (ListXAttr.new guard inode size) calls
  have response : ((ListXAttr.new guard inode size).afterNames calls).response =
      Terminated.join 0 ((ListXAttr.new guard inode size).acceptedNames calls) := by
    rw [after]
    rfl
  constructor
  · intro listed before name rest split nul
    by_contra fits
    have decoded := listed.decoded
    rw [response, Terminated.split_join_iff] at decoded
    refine decoded name ?_ nul
    exact (mem_acceptedNames _ calls).mpr ⟨before, .add name, rest, split, rfl, Nat.not_lt.mp fits⟩
  · intro condition
    refine ⟨?_, ?_, ?_, ?_⟩
    · rw [response, Terminated.split_join_iff]
      intro name member
      obtain ⟨before, c, rest, split, rfl, room⟩ := (mem_acceptedNames _ calls).mp member
      cases c with
      | add name =>
          intro nul
          exact absurd (condition before name rest split nul) (Nat.not_lt.mpr room)
      | addCString name => exact name.noNul
    · intro host
      refine ⟨_, congrArg Host.log (replyOk_run _ _ host), ?_⟩
      rw [after]
      exact Plan.armed_success ..
    · intro c
      have limit : ((ListXAttr.new guard inode size).afterNames calls).size =
          (ListXAttr.new guard inode size).size := by
        rw [after]
      rw [c.run_eq, limit]
      split
      · next room =>
          refine iff_of_false (by simp) ?_
          omega
      · next short =>
          refine iff_of_true rfl ?_
          omega
    · intro r name clean
      exact r.addBytesWithoutZero_eq name

end names

/-- `a\0b` is one name to `add` and two names to whoever reads the list. -/
theorem embedded_nul_splits :
    ((ListXAttr.new ⟨1⟩ 1 4096).add [97, 0, 98]).1 = .ok ∧
      (ListXAttr.new ⟨1⟩ 1 4096).acceptedNames [.add [97, 0, 98]] = [[97, 0, 98]] ∧
      Terminated.split 0 ((ListXAttr.new ⟨1⟩ 1 4096).afterNames [.add [97, 0, 98]]).response =
        ([[97], [98]], []) ∧
      ¬ NamesListed (ListXAttr.new ⟨1⟩ 1 4096) [.add [97, 0, 98]] := by
  refine ⟨by decide, by decide, by decide, ?_⟩
  intro listed
  have decoded := listed.decoded
  revert decoded
  decide

end ProxmoxFuse
