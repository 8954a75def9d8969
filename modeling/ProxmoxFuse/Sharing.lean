import ProxmoxFuse.Handling
import ProxmoxFuse.Mounting

/-!
# Who shares the descriptor

A mounted session shares its descriptor: the `Fuse` and the task that watches for
errors have an `Arc` of the `AsyncFd`, and the `AsyncFd` and the guard of every
request that exists have one of the descriptor itself. The counts are followed
through the runs of a session in its process; the descriptor is closed where the last
of them goes.
-/
namespace ProxmoxFuse
open Sys

/-- A mounted session in its process, with the strong counts of its two `Arc`s. -/
structure Session where
  world : World
  /-- The task that watches for errors has not ended. -/
  watching : Bool
  asyncFd : Nat
  ownedFd : Nat
  process : Process OsStr

namespace Session

/-- `Arc::clone` of the descriptor, once for each request. -/
def cloneFd (s : Session) (requests : Nat) : Session :=
  { s with ownedFd := s.ownedFd + requests }

/-- The last clone closes the descriptor. -/
def dropFd (fd : Nat) (s : Session) : Session :=
  { s with
    ownedFd := s.ownedFd - 1
    process.fds := if s.ownedFd = 1 then s.process.fds.erase fd else s.process.fds }

/-- The last clone drops the `AsyncFd`, and with it its clone of the descriptor. -/
def dropAsyncFd (fd : Nat) (s : Session) : Session :=
  let last := s.asyncFd = 1
  let s := { s with asyncFd := s.asyncFd - 1 }
  if last then s.dropFd fd else s

def dropFds (fd : Nat) : (requests : Nat) → Session → Session
  | 0, s => s
  | n + 1, s => dropFds fd n (s.dropFd fd)

/-- What `FuseSession::mount` returns: two clones of the `AsyncFd`, which has the descriptor. -/
def start (ops : EnabledOps) (initDone : Bool) (outcome : Nat → WritevResult) (pageSize : Int64)
    (p : Process OsStr) : Session :=
  ⟨World.mounted ops initDone outcome pageSize, true, 2, 1, p⟩

/-- Dropping the `Fuse`: what `Drop` does, then the fields, in their order. -/
def dropFuse (sys : MountEnv) (self : Mounted) (s : Session) : Session :=
  let s := { s with process := self.drop sys s.process }
  let s := s.dropAsyncFd self.fd
  { dropFds self.fd s.world.fuse.pending.length s with world := s.world.dropFuse }

theorem dropFuse_world (sys : MountEnv) (self : Mounted) (s : Session) :
    (s.dropFuse sys self).world = s.world.dropFuse := by
  simp only [dropFuse, dropAsyncFd]
  split
  · rfl
  · rfl

/-- A step of the session, or the end of the watching task. -/
inductive Step (τ : Type) [Timeout τ] (sys : MountEnv) (self : Mounted) :
    Session → Session → Prop where
  | poll (s : Session) (live : s.world.live = true) (turns : List Turn) :
      Step τ sys self s
        { s.cloneFd ((s.world.pollNext turns).2.requests.length - s.world.requests.length) with
          world := (s.world.pollNext turns).2 }
  | call (s : Session) (front back : List (Request × Message)) (r : Request) (m : Message)
      (split : s.world.held = front ++ (r, m) :: back) (c : Call τ r) :
      Step τ sys self s { s with world.held := front ++ (c.after, m) :: back }
  | consume (s : Session) (front back : List (Request × Message)) (r : Request) (m : Message)
      (split : s.world.held = front ++ (r, m) :: back) (c : Consume τ r) :
      Step τ sys self s (dropFd self.fd { s with world := s.world.consume (front ++ back) r c })
  | watched (s : Session) (watching : s.watching = true) :
      Step τ sys self s (dropAsyncFd self.fd { s with watching := false })
  | dropFuse (s : Session) (live : s.world.live = true) : Step τ sys self s (s.dropFuse sys self)

theorem Step.polls {τ : Type} [Timeout τ] {sys : MountEnv} {self : Mounted} {s : Session}
    {turns : List Turn} {result : Option PollResult} {w : World} (live : s.world.live = true)
    (polled : s.world.pollNext turns = (result, w)) :
    Step τ sys self s
      { s.cloneFd (w.requests.length - s.world.requests.length) with world := w } := by
  have step : Step τ sys self s _ := .poll s live turns
  rwa [polled] at step

/-- Something that has the descriptor is left. -/
def shared (s : Session) : Bool := s.world.live || s.watching || !s.world.requests.isEmpty

/-! ### Clones and drops -/

/-- The descriptor is open while its count is not 0. -/
def Open (fd : Nat) (base : List Nat) (s : Session) : Prop :=
  s.process.fds.Perm ((if s.ownedFd = 0 then [] else [fd]) ++ base)

variable {fd : Nat} {base : List Nat} {s : Session}

theorem Open.dropFd (opened : Open fd base s) : Open fd base (s.dropFd fd) := by
  simp only [Open, Session.dropFd] at opened ⊢
  by_cases last : s.ownedFd = 1
  · simp only [last, if_true, Nat.sub_self, List.nil_append] at opened ⊢
    have closed := opened.erase fd
    rwa [List.erase_append_left _ (by simp), if_neg (by decide), List.erase_cons_head] at closed
  · have same : s.ownedFd - 1 = 0 ↔ s.ownedFd = 0 := by omega
    simpa only [last, if_false, same] using opened

theorem dropFds_eq (fd n : Nat) (s : Session) :
    (dropFds fd n s).ownedFd = s.ownedFd - n ∧ (dropFds fd n s).asyncFd = s.asyncFd ∧
      (dropFds fd n s).watching = s.watching ∧ (dropFds fd n s).world = s.world := by
  induction n generalizing s with
  | zero => exact ⟨rfl, rfl, rfl, rfl⟩
  | succ n ih =>
      obtain ⟨owned, rest⟩ := ih (s.dropFd fd)
      refine ⟨?_, rest⟩
      have one : (s.dropFd fd).ownedFd = s.ownedFd - 1 := rfl
      change (dropFds fd n (s.dropFd fd)).ownedFd = s.ownedFd - (n + 1)
      omega

theorem Open.dropFds (opened : Open fd base s) (n : Nat) : Open fd base (dropFds fd n s) := by
  induction n generalizing s with
  | zero => exact opened
  | succ n ih => exact ih opened.dropFd

theorem dropAsyncFd_eq (fd : Nat) (s : Session) :
    (s.dropAsyncFd fd).ownedFd = s.ownedFd - (if s.asyncFd = 1 then 1 else 0) ∧
      (s.dropAsyncFd fd).asyncFd = s.asyncFd - 1 ∧
      (s.dropAsyncFd fd).watching = s.watching ∧ (s.dropAsyncFd fd).world = s.world := by
  simp only [dropAsyncFd]
  split
  · exact ⟨rfl, rfl, rfl, rfl⟩
  · exact ⟨rfl, rfl, rfl, rfl⟩

theorem Open.dropAsyncFd (opened : Open fd base s) : Open fd base (s.dropAsyncFd fd) := by
  simp only [Session.dropAsyncFd]
  split
  · exact Open.dropFd (s := { s with asyncFd := s.asyncFd - 1 }) opened
  · exact opened

/-- No poll loses a request. -/
theorem pollTurn_requests (w : World) (t : Turn) :
    w.requests.length ≤ (w.pollTurn t).2.requests.length := by
  have effect := w.pollTurn_effect t
  generalize (w.pollTurn t).2 = w' at effect
  cases effect with
  | quiet same => exact same.requests.length_eq.ge
  | empty m bad w₁ same read => exact same.requests.length_eq.ge
  | message m w₁ same handled =>
      obtain ⟨buf, heap, result, fuse, host, heap', _, held, rfl, _, view⟩ := handled
      obtain ⟨rs, appended, _⟩ := view.appended
      have before := same.requests.length_eq
      simp only [World.requests, held, appended, List.length_append, List.length_map] at before ⊢
      omega

theorem pollNext_requests (w : World) (turns : List Turn) :
    w.requests.length ≤ (w.pollNext turns).2.requests.length :=
  World.pollNext_induct (P := fun w' => w.requests.length ≤ w'.requests.length)
    (fun w' t le => le.trans (pollTurn_requests w' t)) w turns le_rfl

/-! ### The counts -/

/-- The counts are those of what has a clone. -/
structure Counts (fd : Nat) (base : List Nat) (s : Session) : Prop where
  async : s.asyncFd = s.world.live.toNat + s.watching.toNat
  owned : s.ownedFd = (if s.asyncFd = 0 then 0 else 1) + s.world.requests.length
  opened : Open fd base s

theorem start_counts (ops : EnabledOps) (initDone : Bool) (outcome : Nat → WritevResult)
    (pageSize : Int64) {p : Process OsStr} (one : p.fds.Perm (fd :: base)) :
    Counts fd base (start ops initDone outcome pageSize p) := ⟨rfl, rfl, one⟩

theorem Counts.shared (counts : Counts fd base s) : s.shared = false ↔ s.ownedFd = 0 := by
  have async := counts.async
  have owned := counts.owned
  rw [owned, async, Session.shared]
  cases s.world.live with
  | true => simp
  | false =>
      cases s.watching with
      | true => simp
      | false => simp [List.isEmpty_iff, List.length_eq_zero_iff]

variable {τ : Type} [Timeout τ] {sys : MountEnv} {self : Mounted} {s' : Session}

theorem Counts.step (counts : Counts self.fd base s) (step : Step τ sys self s s') :
    Counts self.fd base s' := by
  obtain ⟨async, owned, opened⟩ := counts
  cases step with
  | poll live turns =>
      have alive : (s.world.pollNext turns).2.live = s.world.live := s.world.pollNext_live turns
      have more := pollNext_requests s.world turns
      have some : s.asyncFd ≠ 0 := by
        rw [async, live]
        simp
      rw [if_neg some] at owned
      refine ⟨?_, ?_, ?_⟩
      · simp only [cloneFd, alive, async]
      · simp only [cloneFd, some, if_false]
        omega
      · have before : s.ownedFd ≠ 0 := by omega
        have after : s.ownedFd + ((s.world.pollNext turns).2.requests.length -
          s.world.requests.length) ≠ 0 := by omega
        simpa only [Open, cloneFd, before, after, if_false] using opened
  | call front back r m split c =>
      refine ⟨async, ?_, opened⟩
      simpa only [World.requests, split, List.length_append, List.length_map, List.length_cons]
        using owned
  | consume front back r m split c =>
      refine ⟨async, ?_, Open.dropFd (s := { s with world := _ }) opened⟩
      simp only [World.requests, split, List.length_append, List.length_map, List.length_cons]
        at owned
      simp only [dropFd, World.requests, World.consume, List.length_append, List.length_map]
      omega
  | watched watching =>
      obtain ⟨owned', async', watching', world'⟩ :=
        dropAsyncFd_eq self.fd { s with watching := false }
      rw [watching] at async
      refine ⟨?_, ?_, Open.dropAsyncFd (s := { s with watching := false }) opened⟩
      · rw [async', watching', world']
        simp only [async, Bool.toNat_true, Bool.toNat_false]
        omega
      · rw [owned', async', world']
        change s.ownedFd - (if s.asyncFd = 1 then 1 else 0) =
          (if s.asyncFd - 1 = 0 then 0 else 1) + s.world.requests.length
        rw [owned, async]
        cases s.world.live with
        | true => simp
        | false => simp
  | dropFuse live =>
      have kept : Open self.fd base { s with process := self.drop sys s.process } := by
        simpa only [Open, drop_fds] using opened
      obtain ⟨owned₁, async₁, watching₁, world₁⟩ :=
        dropAsyncFd_eq self.fd { s with process := self.drop sys s.process }
      obtain ⟨owned₂, async₂, watching₂, _⟩ := dropFds_eq self.fd s.world.fuse.pending.length
        (dropAsyncFd self.fd { s with process := self.drop sys s.process })
      have open₂ := kept.dropAsyncFd.dropFds s.world.fuse.pending.length
      have held : s.world.dropFuse.requests.length = s.world.held.length := by
        simp [World.requests, World.dropFuse]
      have all : s.world.requests.length = s.world.fuse.pending.length + s.world.held.length := by
        simp [World.requests]
      rw [live] at async
      simp only [Session.dropFuse, world₁]
      refine ⟨?_, ?_, open₂⟩
      · change (dropFds _ _ _).asyncFd = false.toNat + (dropFds _ _ _).watching.toNat
        rw [async₂, watching₂, async₁, watching₁]
        simp only [async, Bool.toNat_true, Bool.toNat_false]
        omega
      · change (dropFds _ _ _).ownedFd = (if (dropFds _ _ _).asyncFd = 0 then 0 else 1) +
          s.world.dropFuse.requests.length
        rw [owned₂, async₂, owned₁, async₁, held]
        simp only [owned, async, all]
        cases s.watching with
        | true =>
            simp
            omega
        | false => simp

end Session

section
variable (sys : MountEnv)

/-- Whatever the system and the helper answer: a mount that fails leaves the process with the
descriptors it had. One that succeeds opens one more, which is open in exactly those states of
every run in which the `Fuse`, the watching task or a request is left. A second descriptor in
the message of the helper stays open in both cases. -/
theorem sessions_return_their_descriptors {τ : Type} [Timeout τ] (self : FuseSessionBuilder)
    (path : OsStr) (p : Process OsStr) :
    (∀ e, (self.mount sys path p).1 = .error e →
      (self.mount sys path p).2.fds.Perm (self.strays sys path ++ p.fds)) ∧
      ∀ mounted, (self.mount sys path p).1 = .ok mounted →
        ∀ (initDone : Bool) (outcome : Nat → WritevResult) (pageSize : Int64) (s : Session),
          Relation.ReflTransGen (Session.Step τ sys mounted)
            (Session.start self.ops initDone outcome pageSize (self.mount sys path p).2) s →
          s.process.fds.Perm
            ((if s.shared then [mounted.fd] else []) ++ (self.strays sys path ++ p.fds)) := by
  obtain ⟨good, bad⟩ := mount_owns sys self path p.fds p (.refl _)
  refine ⟨bad, ?_⟩
  intro mounted done initDone outcome pageSize s run
  have counts : Session.Counts mounted.fd (self.strays sys path ++ p.fds) s := by
    induction run with
    | refl => exact Session.start_counts self.ops initDone outcome pageSize (good mounted done)
    | tail _ step ih => exact ih.step step
  have opened := counts.opened
  have shared := counts.shared
  cases left : s.shared with
  | true =>
      have some : s.ownedFd ≠ 0 := by
        rw [← not_iff_not] at shared
        exact shared.mp (by simp [left])
      simpa only [Session.Open, some, if_false, if_true] using opened
  | false => simpa [Session.Open, shared.mp left] using opened

/-- The helper's message brings a second descriptor. A request outlives the `Fuse` and the
watching task, and keeps the descriptor open until it is given up. -/
theorem sessions_return_their_descriptors_user :
    ∃ s s' : Session,
      Relation.ReflTransGen (Session.Step (UInt64 × UInt32) userEnv ⟨9, [47]⟩)
        (Session.start mytmpfs.ops true (fun _ => .ok) 4096 (mytmpfs.mount userEnv [47] daemon).2)
          s ∧
      Session.Step (UInt64 × UInt32) userEnv ⟨9, [47]⟩ s s' ∧
      s.world.live = false ∧ s.watching = false ∧
      s.process.fds.Perm (9 :: 10 :: daemon.fds) ∧ s'.process.fds.Perm (10 :: daemon.fds) := by
  have all := (sessions_return_their_descriptors userEnv (τ := UInt64 × UInt32) mytmpfs [47]
    daemon).2 ⟨9, [47]⟩ rfl true (fun _ => .ok) 4096
  obtain ⟨s₁, read, held, live, watching⟩ : ∃ s₁, Session.Step (UInt64 × UInt32) userEnv ⟨9, [47]⟩
      (Session.start mytmpfs.ops true (fun _ => .ok) 4096 (mytmpfs.mount userEnv [47] daemon).2)
        s₁ ∧
      s₁.world.held = [] ++ (.mkdir ⟨⟨1⟩, 1, [97], 0⟩, mkdirMessage) :: [] ∧
      s₁.world.live = true ∧ s₁.watching = true := by
    have polled : tmpfsMount.pollNext (wakeFor mkdirMessage).turns = _ :=
      World.pollNext_takes (r := .mkdir ⟨⟨1⟩, 1, [97], 0⟩) ⟨rfl, rfl, rfl⟩ rfl rfl
        (accepted_bytes rfl) rfl rfl _
    exact ⟨_, .polls rfl polled, rfl, rfl, rfl⟩
  let s₂ := s₁.dropFuse userEnv ⟨9, [47]⟩
  have still : s₂.watching = true := by
    rw [← watching]
    exact (Session.dropFds_eq 9 _ _).2.2.1.trans (Session.dropAsyncFd_eq 9 _).2.2.1
  let s₃ := Session.dropAsyncFd 9 { s₂ with watching := false }
  have ended : s₃.watching = false ∧ s₃.world = s₁.world.dropFuse := by
    obtain ⟨-, -, watching, world⟩ := Session.dropAsyncFd_eq 9 { s₂ with watching := false }
    exact ⟨watching, world.trans (Session.dropFuse_world userEnv ⟨9, [47]⟩ s₁)⟩
  have run :=
    ((Relation.ReflTransGen.single read).tail (.dropFuse s₁ live)).tail (.watched s₂ still)
  have gone : s₃.world.live = false := by rw [ended.2]; rfl
  have left : s₃.world.held = [] ++ (.mkdir ⟨⟨1⟩, 1, [97], 0⟩, mkdirMessage) :: [] := by
    rw [ended.2]
    exact held
  obtain ⟨s₄, last, requests, live₄, watching₄⟩ : ∃ s₄, Session.Step (UInt64 × UInt32) userEnv
      ⟨9, [47]⟩ s₃ s₄ ∧ s₄.world.requests = [] ∧ s₄.world.live = false ∧ s₄.watching = false := by
    refine ⟨_, .consume s₃ [] [] _ _ left (.fail _ 5), ?_, gone, ended.1⟩
    simp [Session.dropFd, World.requests, World.consume, ended.2, World.dropFuse]
  refine ⟨s₃, s₄, run, last, gone, ended.1, ?_, ?_⟩
  · have opened := all s₃ run
    have shared : s₃.shared = true := by simp [Session.shared, World.requests, left]
    rwa [shared] at opened
  · have closed := all s₄ (run.tail last)
    have none : s₄.shared = false := by simp [Session.shared, requests, live₄, watching₄]
    rwa [none] at closed

end
end ProxmoxFuse
