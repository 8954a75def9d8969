import ProxmoxFuse.Descriptors
import ProxmoxFuse.Session
import ProxmoxFuse.Tmpfs

/-!
# Mounting and unmounting

`mount.rs` and the ends of a session. A mount is tried directly and, where that is not
permitted, through the setuid helper. What the system answers is an argument; what is
followed is who owns which descriptor and what is mounted where. The descriptor of a
session that was mounted is shared; when it is closed is left to those who share it.
-/
namespace ProxmoxFuse

def EPERM : Int32 := 1

/-! ### The system -/

def SOL_SOCKET : Int32 := 1
def SCM_RIGHTS : Int32 := 1

/-- The first control message that came with a byte on the socket, as far as the buffer takes it.
`CMSG_SPACE` for one descriptor is 24 bytes: 16 for the header, and room for two. -/
structure Cmsg where
  level : Int32
  type : Int32
  fd : Int32
  second : Option Int32

/-- How a run of `fusermount3` ends. -/
inductive HelperEnd where
  | unstarted (error : String)
  | unwaited (error : String)
  | exited (status : String) (success : Bool)

/-- What the system answers; the helper also with whether it did what it was asked for. -/
structure MountEnv where
  canonicalize : OsStr → Except IoError OsStr
  stat : OsStr → Except Int32 UInt32
  devFuse : Except Int32 Nat
  uid : UInt32
  gid : UInt32
  mount : String → OsStr → String → Except Int32 Unit
  socketpair : Except Int32 (Nat × Nat)
  setCloexec : Except Int32 Unit
  helper : String → OsStr → HelperEnd × Bool
  recvmsg : Except Int32 (Option Cmsg)
  getfl : Except Int32 Unit
  setfl : Except Int32 Unit
  register : Except IoError Unit
  umount2 : OsStr → Except Int32 Unit
  unmountHelper : OsStr → HelperEnd × Bool

def Cmsg.rights (c : Cmsg) : Bool := c.level == SOL_SOCKET && c.type == SCM_RIGHTS

def descriptor (fd : Int32) : List Nat := if fd < 0 then [] else [fd.toInt.toNat]

/-- The descriptor of a message that nobody looks at. -/
def Cmsg.strays : Option Cmsg → List Nat
  | some c => if c.rights then c.second.toList.flatMap descriptor else []
  | none => []

/-- The descriptors that are open once a message was received. -/
def Cmsg.opens : Option Cmsg → List Nat
  | some c => if c.rights then descriptor c.fd ++ strays (some c) else []
  | none => []

open Sys

/-- `CString::new` with the error of a NUL byte inside. -/
def cstring {α : Type} [DecidableEq α] (nul : α) (text : List α) (message : String) :
    Except IoError Unit :=
  if nul ∈ text then .error (.other message) else .ok ()

/-- The exit status and whether it is a success. -/
def HelperEnd.wait : HelperEnd → Except IoError (String × Bool)
  | .unstarted e => .error (.other s!"failed to execute fusermount3: {e}")
  | .unwaited e => .error (.other s!"failed to wait for fusermount3: {e}")
  | .exited status success => .ok (status, success)

def HelperEnd.success : HelperEnd → Bool
  | .exited _ success => success
  | _ => false

def octal (n : UInt32) : String := String.ofList (Nat.toDigits 8 n.toNat)

section
variable (sys : MountEnv)

def fuseMountDirect (mountpoint : OsStr) (fsname : String) (options : List String) :
    Sys OsStr IoError Nat := do
  answer (cstring 0 mountpoint "mountpoint path contains NUL byte")
  let mode ← answer ((sys.stat mountpoint).mapError .os)
  let fd ← opening (fun fd => [fd]) (sys.devFuse.mapError .os)
  owning fd do
    let optsStr := options.foldl (fun opts extra => opts ++ "," ++ extra)
      s!"fd={fd},rootmode={octal (mode &&& S_IFMT)},user_id={sys.uid},group_id={sys.gid}"
    answer (cstring (Char.ofNat 0) optsStr.toList "mount options contain NUL byte")
    answer (cstring (Char.ofNat 0) fsname.toList "fsname contains NUL byte")
    let result := sys.mount fsname mountpoint optsStr
    mounting mountpoint result.isOk (result.mapError .os)
  return fd

/-- Only the parent's end of the pair is closed when the helper is executed. -/
def unixSocketpair : Sys OsStr IoError (Nat × Nat) := do
  let pair ← opening (fun pair => [pair.1, pair.2]) (sys.socketpair.mapError .os)
  owning pair.1 (owning pair.2 (answer (sys.setCloexec.mapError .os)))
  return pair

/-- Only the first descriptor of the message is taken over. -/
def recvFd : Sys OsStr IoError Nat := do
  let cmsg ← opening Cmsg.opens (sys.recvmsg.mapError .os)
  match cmsg with
  | none => answer (.error (.other "fusermount3 did not send a file descriptor"))
  | some c =>
      if c.level ≠ SOL_SOCKET ∨ c.type ≠ SCM_RIGHTS then
        answer (.error (.other "unexpected ancillary data from fusermount3"))
      else if c.fd < 0 then answer (.error (.other "fusermount3 sent an invalid file descriptor"))
      else return c.fd.toInt.toNat

def fuseMountViaHelper (mountpoint : OsStr) (fsname : String) (options : List String) :
    Sys OsStr IoError Nat := do
  let (parent, child) ← unixSocketpair sys
  let fd ← owning parent do
    let run := sys.helper (",".intercalate (s!"fsname={fsname}" :: options)) mountpoint
    let (status, success) ← owning child (mounting mountpoint run.2 run.1.wait)
    close child
    if success then recvFd sys
    else answer (.error (.other s!"fusermount3 failed with {status}"))
  close parent
  return fd

/-- The helper is only asked when the direct call is not permitted. -/
def fuseMount (mountpoint : OsStr) (fsname : String) (options : List String) :
    Sys OsStr IoError Nat := fun p =>
  match fuseMountDirect sys mountpoint fsname options p with
  | (.ok fd, p) => (.ok fd, p)
  | (.error e, p) =>
      if e.rawOsError = some EPERM then fuseMountViaHelper sys mountpoint fsname options p
      else (.error e, p)

def umount2Detach (mountpoint : OsStr) : Sys OsStr IoError Unit := do
  answer (cstring 0 mountpoint "mountpoint path contains NUL byte")
  let result := sys.umount2 mountpoint
  unmounting mountpoint result.isOk (result.mapError .os)

def fuseUnmountViaHelper (mountpoint : OsStr) : Sys OsStr IoError Unit :=
  let run := sys.unmountHelper mountpoint
  unmounting mountpoint run.2 <|
    match run.1 with
    | .unstarted e => .error (.other s!"failed to execute fusermount3 -u: {e}")
    | .unwaited e => .error (.other s!"failed to execute fusermount3 -u: {e}")
    | .exited status success =>
        if success then .ok () else .error (.other s!"fusermount3 -u failed with {status}")

/-- Where `FuseSession::mount` fails. -/
inductive MountError where
  | badMountPoint (error : IoError)
  | mountFailed (error : IoError)
  | getfl (errno : Int32)
  | setfl (errno : Int32)
  | register (error : IoError)

/-- What a `Fuse` has of the process. -/
structure Mounted where
  fd : Nat
  mountpoint : OsStr

/-- `FuseSession::mount`. -/
def FuseSessionBuilder.mount (self : FuseSessionBuilder) (mountpoint : OsStr) :
    Sys OsStr MountError Mounted := do
  let mountpoint ← answer ((sys.canonicalize mountpoint).mapError .badMountPoint)
  let fd ← (fuseMount sys mountpoint self.name self.options).mapErr .mountFailed
  owning fd do
    answer (sys.getfl.mapError .getfl)
    answer (sys.setfl.mapError .setfl)
    answer (sys.register.mapError .register)
  return ⟨fd, mountpoint⟩

/-- `Drop` of a `Fuse`, with the thread it may start. -/
def Mounted.drop (self : Mounted) (p : Process OsStr) : Process OsStr :=
  match umount2Detach sys self.mountpoint p with
  | (.ok (), p) => p
  | (.error e, p) =>
      if e.rawOsError = some EPERM then (fuseUnmountViaHelper sys self.mountpoint p).2 else p

/-! ### Who owns what -/

/-- What a message that is received leaves open. -/
def MountEnv.strays : List Nat :=
  match sys.recvmsg with
  | .ok cmsg => Cmsg.strays cmsg
  | .error _ => []

/-- Whether the helper is run to its end and the message received. -/
def MountEnv.receives (mountpoint : OsStr) (fsname : String) (options : List String) : Bool :=
  sys.socketpair.isOk && sys.setCloexec.isOk &&
    (sys.helper (",".intercalate (s!"fsname={fsname}" :: options)) mountpoint).1.success

/-- Whether the direct call is not permitted. -/
def MountEnv.refuses (mountpoint : OsStr) (fsname : String) (options : List String) : Bool :=
  match (fuseMountDirect sys mountpoint fsname options ⟨[], []⟩).1 with
  | .ok _ => false
  | .error e => e.rawOsError == some EPERM

/-- The descriptors a mount leaves open with nobody to close them. -/
def FuseSessionBuilder.strays (self : FuseSessionBuilder) (path : OsStr) : List Nat :=
  match sys.canonicalize path with
  | .ok mountpoint =>
      if sys.refuses mountpoint self.name self.options ∧
        sys.receives mountpoint self.name self.options then sys.strays else []
  | .error _ => []

theorem fuseMountDirect_owns (mountpoint : OsStr) (fsname : String) (options : List String) :
    Owns [] (fuseMountDirect sys mountpoint fsname options) (fun fd => [fd]) [] := by
  unfold fuseMountDirect
  refine (Owns.answer _).bind fun _ => (Owns.answer _).bind fun mode => ?_
  refine (Owns.opening _ _).bind fun fd => ?_
  refine Owns.bind (Owns.owning ?_ fd) fun _ => Owns.pure (fun fd => [fd]) fd
  exact (Owns.answer _).bind fun _ => (Owns.answer _).bind fun _ => Owns.mounting _ _ _

theorem fuseMountDirect_blind (mountpoint : OsStr) (fsname : String) (options : List String) :
    Blind (fuseMountDirect sys mountpoint fsname options) := by
  unfold fuseMountDirect
  refine (Blind.answer _).bind fun _ => (Blind.answer _).bind fun mode => ?_
  refine (Blind.opening _ _).bind fun fd => Blind.bind (Blind.owning ?_ fd) fun _ _ _ => rfl
  exact (Blind.answer _).bind fun _ => (Blind.answer _).bind fun _ => Blind.mounting _ _ _

theorem unixSocketpair_owns :
    Owns [] (unixSocketpair sys) (fun pair => [pair.1, pair.2]) [] := by
  unfold unixSocketpair
  refine (Owns.opening _ _).bind fun pair => ?_
  exact (((Owns.answer _).owning pair.2).owning pair.1).bind fun _ =>
    Owns.pure (fun pair => [pair.1, pair.2]) pair

theorem unixSocketpair_isOk (p : Process OsStr) :
    (unixSocketpair sys p).1.isOk = (sys.socketpair.isOk && sys.setCloexec.isOk) := by
  cases pair : sys.socketpair with
  | error e => simp [unixSocketpair, Bind.bind, opening, pair, Except.mapError, Except.isOk,
      Except.toBool]
  | ok fds =>
      cases cloexec : sys.setCloexec with
      | error e => simp [unixSocketpair, Bind.bind, opening, owning, answer, pair, cloexec,
          Except.mapError, Except.isOk, Except.toBool]
      | ok u => simp [unixSocketpair, Bind.bind, Pure.pure, opening, owning, answer, pair, cloexec,
          Except.mapError, Except.isOk, Except.toBool]

theorem recvFd_owns : Owns [] (recvFd sys) (fun fd => [fd]) sys.strays := by
  unfold recvFd
  refine (Owns.opening _ _).bind_loses ?_ ?_
  · intro cmsg p received
    have message : sys.recvmsg = .ok cmsg := by
      cases answered : sys.recvmsg with
      | error e =>
          rw [answered] at received
          cases received
      | ok c =>
          rw [answered] at received
          cases received
          rfl
    simp only [MountEnv.strays, message]
    cases cmsg with
    | none => exact Owns.fails [] _
    | some c =>
        dsimp only
        split
        · next other =>
            have wrong : c.rights = false := by
              rcases other with level | type
              · simp [Cmsg.rights, level]
              · simp [Cmsg.rights, type]
            simp only [Cmsg.opens, Cmsg.strays, wrong]
            exact Owns.fails [] _
        · next rights =>
            obtain ⟨level, type⟩ := not_or.mp rights
            have right : c.rights = true := by
              simp only [Cmsg.rights, not_not.mp level, not_not.mp type]
              rfl
            simp only [Cmsg.opens, right, if_true, descriptor]
            split
            · exact Owns.fails _ _
            · exact Owns.pure_loses (fun fd => [fd]) _ _
  · intro e p failed
    cases answered : sys.recvmsg with
    | error _ => simp [MountEnv.strays, answered]
    | ok c =>
        rw [answered] at failed
        cases failed

theorem HelperEnd.wait_success {run : HelperEnd} {status : String} {success : Bool}
    (waited : run.wait = .ok (status, success)) : run.success = success := by
  cases run with
  | unstarted e => cases waited
  | unwaited e => cases waited
  | exited s success =>
      cases waited
      rfl

theorem HelperEnd.wait_error {run : HelperEnd} {e : IoError} (failed : run.wait = .error e) :
    run.success = false := by
  cases run with
  | unstarted e => rfl
  | unwaited e => rfl
  | exited s success => cases failed

/-- What a mount through the helper leaves open. -/
def MountEnv.helperStrays (mountpoint : OsStr) (fsname : String) (options : List String) :
    List Nat :=
  if sys.receives mountpoint fsname options then sys.strays else []

theorem fuseMountViaHelper_owns (mountpoint : OsStr) (fsname : String) (options : List String) :
    Owns [] (fuseMountViaHelper sys mountpoint fsname options) (fun fd => [fd])
      (sys.helperStrays mountpoint fsname options) := by
  unfold fuseMountViaHelper
  refine (unixSocketpair_owns sys).bind_loses ?_ ?_
  · rintro ⟨parent, child⟩ p paired
    have pairs := unixSocketpair_isOk sys p
    rw [paired] at pairs
    refine Owns.bind (?_ : Owns _ _ (fun fd => [parent, fd]) _) fun fd =>
      (Owns.close parent [fd]).bind fun _ => Owns.pure (fun fd => [fd]) fd
    refine Owns.owning ?_ parent
    refine ((Owns.mounting _ _ _).owning child).bind_loses ?_ ?_
    · rintro ⟨status, success⟩ q waited
      have exited := HelperEnd.wait_success ((owning_result child q).symm.trans waited)
      have receives : sys.receives mountpoint fsname options = success := by
        rw [MountEnv.receives, ← pairs, exited]
        rfl
      refine (Owns.close child []).bind_loses (fun _ _ _ => ?_) fun _ _ closed => nomatch closed
      simp only [MountEnv.helperStrays, receives]
      cases success with
      | true => exact recvFd_owns sys
      | false => exact Owns.fails [] _
    · intro e q failed
      have exited := HelperEnd.wait_error ((owning_result child q).symm.trans failed)
      have stopped : sys.receives mountpoint fsname options = false := by
        rw [MountEnv.receives, exited, Bool.and_false]
      simp [MountEnv.helperStrays, stopped]
  · intro e p failed
    have pairs := unixSocketpair_isOk sys p
    rw [failed] at pairs
    have unpaired : sys.receives mountpoint fsname options = false := by
      rw [MountEnv.receives, ← pairs]
      rfl
    simp [MountEnv.helperStrays, unpaired]

theorem fuseMount_owns (mountpoint : OsStr) (fsname : String) (options : List String) :
    Owns [] (fuseMount sys mountpoint fsname options) (fun fd => [fd])
      (if sys.refuses mountpoint fsname options then sys.helperStrays mountpoint fsname options
        else []) := by
  intro base p start
  obtain ⟨good, bad⟩ := fuseMountDirect_owns sys mountpoint fsname options base p start
  have direct := fuseMountDirect_blind sys mountpoint fsname options p ⟨[], []⟩
  simp only [fuseMount, MountEnv.refuses, ← direct]
  generalize fuseMountDirect sys mountpoint fsname options p = out at good bad
  obtain ⟨result, p'⟩ := out
  cases result with
  | ok fd => exact ⟨good, bad⟩
  | error e =>
      by_cases refused : e.rawOsError = some EPERM
      · simp only [refused, if_true, beq_self_eq_true]
        exact fuseMountViaHelper_owns sys mountpoint fsname options base p' (bad e rfl)
      · simp only [refused, if_false, beq_iff_eq]
        exact ⟨fun _ same => (nomatch same), bad⟩

theorem mount_owns (self : FuseSessionBuilder) (path : OsStr) :
    Owns [] (self.mount sys path) (fun session => [session.fd]) (self.strays sys path) := by
  unfold FuseSessionBuilder.mount
  refine (Owns.answer _).bind_loses ?_ ?_
  · intro mountpoint p named
    have found : sys.canonicalize path = .ok mountpoint := by
      cases canonical : sys.canonicalize path with
      | error e =>
          rw [canonical] at named
          cases named
      | ok _ =>
          rw [canonical] at named
          cases named
          rfl
    have strays : self.strays sys path = if sys.refuses mountpoint self.name self.options then
        sys.helperStrays mountpoint self.name self.options else [] := by
      simp only [FuseSessionBuilder.strays, found, MountEnv.helperStrays]
      split_ifs <;> simp_all
    rw [strays]
    refine ((fuseMount_owns sys mountpoint _ _).mapErr _).bind fun fd => ?_
    refine Owns.bind (Owns.owning ?_ fd) fun _ =>
      Owns.pure (fun session => [session.fd]) (Mounted.mk fd mountpoint)
    exact (Owns.answer _).bind fun _ => (Owns.answer _).bind fun _ => Owns.answer _
  · intro e p missing
    cases canonical : sys.canonicalize path with
    | error e => simp only [FuseSessionBuilder.strays, canonical]
    | ok _ =>
        rw [canonical] at missing
        cases missing

/-- Unmounting opens and closes nothing. -/
theorem drop_fds (self : Mounted) (p : Process OsStr) : (self.drop sys p).fds = p.fds := by
  have kept : (umount2Detach sys self.mountpoint p).2.fds = p.fds := by
    simp only [umount2Detach, Bind.bind, answer]
    cases cstring 0 self.mountpoint "mountpoint path contains NUL byte" with
    | ok _ => rfl
    | error e => rfl
  simp only [Mounted.drop]
  generalize umount2Detach sys self.mountpoint p = out at kept
  obtain ⟨result, p'⟩ := out
  cases result with
  | ok _ => exact kept
  | error e =>
      dsimp only
      split
      · exact kept
      · exact kept

/-- A user who may only mount through the helper. -/
def userEnv : MountEnv where
  canonicalize path := .ok path
  stat _ := .ok 0o40755
  devFuse := .ok 7
  uid := 1000
  gid := 1000
  mount _ _ _ := .error EPERM
  socketpair := .ok (7, 8)
  setCloexec := .ok ()
  helper _ _ := (.exited "exit status: 0" true, true)
  recvmsg := .ok (some ⟨SOL_SOCKET, SCM_RIGHTS, 9, some 10⟩)
  getfl := .ok ()
  setfl := .ok ()
  register := .ok ()
  umount2 _ := .error EPERM
  unmountHelper _ := (.exited "exit status: 0" true, true)

def daemon : Process OsStr := ⟨[2, 1, 0], []⟩

/-! ### What stays mounted -/

theorem unixSocketpair_still : Still (unixSocketpair sys) :=
  (Still.opening _ _).bind fun _ => (((Still.answer _).owning _).owning _).bind fun _ => fun _ =>
    rfl

theorem recvFd_still : Still (recvFd sys) := by
  unfold recvFd
  refine (Still.opening _ _).bind fun cmsg => ?_
  cases cmsg with
  | none => exact Still.answer _
  | some c =>
      dsimp only
      split
      · exact Still.answer _
      · split
        · exact Still.answer _
        · exact fun _ => rfl

/-- The helper exits with success only if it did what it was asked for. -/
structure MountEnv.Honest : Prop where
  mounts : ∀ opts mountpoint, (sys.helper opts mountpoint).1.success = true →
    (sys.helper opts mountpoint).2 = true
  unmounts : ∀ mountpoint, (sys.unmountHelper mountpoint).1.success = true →
    (sys.unmountHelper mountpoint).2 = true

variable {sys} {mountpoint : OsStr} {fsname : String} {options : List String} {p p' : Process OsStr}
  {fd : Nat}

/-- The direct call mounts exactly if it succeeds. -/
theorem mounting_result {result : Except Int32 Unit} {answered : Except IoError Unit}
    (done : mounting mountpoint result.isOk (result.mapError .os) p = (answered, p')) :
    p'.mounts = if answered.isOk then mountpoint :: p.mounts else p.mounts := by
  cases result with
  | ok _ =>
      cases done
      rfl
  | error e =>
      cases done
      rfl

theorem fuseMountDirect_mounts
    (done : fuseMountDirect sys mountpoint fsname options p = (.ok fd, p')) :
    p'.mounts = mountpoint :: p.mounts := by
  obtain ⟨_, p₁, named, done⟩ := bind_ok done
  obtain ⟨mode, p₂, stated, done⟩ := bind_ok done
  obtain ⟨fd', p₃, opened, done⟩ := bind_ok done
  obtain ⟨_, p₄, body, done⟩ := bind_ok done
  obtain ⟨_, p₅, opts, body⟩ := bind_ok (owning_ok body)
  obtain ⟨_, p₆, source, body⟩ := bind_ok body
  have same : p₆.mounts = p.mounts := by
    rw [(Still.answer _).of source, (Still.answer _).of opts, (Still.opening _ _).of opened,
      (Still.answer _).of stated, (Still.answer _).of named]
  cases done
  rw [← same]
  exact mounting_result body

theorem fuseMountDirect_fails {e : IoError}
    (failed : fuseMountDirect sys mountpoint fsname options p = (.error e, p')) :
    p'.mounts = p.mounts := by
  rcases bind_error failed with failed | ⟨_, p₁, named, failed⟩
  · exact (Still.answer _).of failed
  rw [← (Still.answer _).of named]
  rcases bind_error failed with failed | ⟨mode, p₂, stated, failed⟩
  · exact (Still.answer _).of failed
  rw [← (Still.answer _).of stated]
  rcases bind_error failed with failed | ⟨fd, p₃, opened, failed⟩
  · exact (Still.opening _ _).of failed
  rw [← (Still.opening _ _).of opened]
  rcases bind_error failed with failed | ⟨_, p₄, body, failed⟩
  · obtain ⟨p₅, failed, same⟩ := owning_error failed
    rw [same]
    rcases bind_error failed with failed | ⟨_, p₆, opts, failed⟩
    · exact (Still.answer _).of failed
    rw [← (Still.answer _).of opts]
    rcases bind_error failed with failed | ⟨_, p₇, source, failed⟩
    · exact (Still.answer _).of failed
    rw [← (Still.answer _).of source]
    exact mounting_result failed
  · cases failed

/-- With the helper it is the helper that mounts. -/
theorem fuseMountViaHelper_mounts (honest : sys.Honest)
    (done : fuseMountViaHelper sys mountpoint fsname options p = (.ok fd, p')) :
    p'.mounts = mountpoint :: p.mounts := by
  obtain ⟨⟨parent, child⟩, p₁, paired, done⟩ := bind_ok done
  obtain ⟨fd', p₂, body, done⟩ := bind_ok done
  obtain ⟨_, p₃, closed, done⟩ := bind_ok done
  obtain ⟨⟨status, success⟩, p₄, ran, body⟩ := bind_ok (owning_ok body)
  obtain ⟨_, p₅, dropped, body⟩ := bind_ok body
  cases done
  cases closed
  cases dropped
  have ran := owning_ok ran
  have start := (unixSocketpair_still sys).of paired
  cases success with
  | false => cases body
  | true =>
      have received := (recvFd_still sys).of body
      have exited : (sys.helper (",".intercalate (s!"fsname={fsname}" :: options))
          mountpoint).1.success = true :=
        HelperEnd.wait_success (congrArg Prod.fst ran)
      have mounted := congrArg (·.2.mounts) ran
      simp only [mounting, honest.mounts _ _ exited, if_true, start] at mounted
      exact received.trans mounted.symm

theorem fuseMount_mounts (honest : sys.Honest)
    (done : fuseMount sys mountpoint fsname options p = (.ok fd, p')) :
    p'.mounts = mountpoint :: p.mounts := by
  simp only [fuseMount] at done
  split at done
  · next fd' p₁ direct =>
      cases done
      exact fuseMountDirect_mounts direct
  · next e p₁ refused =>
      split at done
      · rw [fuseMountViaHelper_mounts honest done, fuseMountDirect_fails refused]
      · cases done

variable {self : FuseSessionBuilder} {path : OsStr}

/-- What follows the mount in `FuseSession::mount`. -/
theorem setup_still (fd : Nat) : Still (μ := OsStr) (ε := MountError) (owning fd do
    answer (sys.getfl.mapError .getfl)
    answer (sys.setfl.mapError .setfl)
    answer (sys.register.mapError .register)) :=
  ((Still.answer _).bind fun _ => (Still.answer _).bind fun _ => Still.answer _).owning fd

theorem mount_mounts (honest : sys.Honest) {session : Mounted}
    (done : self.mount sys path p = (.ok session, p')) :
    p'.mounts = session.mountpoint :: p.mounts := by
  obtain ⟨mountpoint, p₁, named, done⟩ := bind_ok done
  obtain ⟨fd, p₂, mounted, done⟩ := bind_ok done
  obtain ⟨_, p₃, body, done⟩ := bind_ok done
  cases done
  rw [(setup_still fd).of body, fuseMount_mounts honest (mapErr_ok mounted),
    (Still.answer _).of named]

/-- The errors after the file system has been mounted. -/
def MountError.late : MountError → Bool
  | .badMountPoint _ => false
  | .mountFailed _ => false
  | .getfl _ => true
  | .setfl _ => true
  | .register _ => true

/-- What takes a file system off its mount point again. -/
def MountEnv.Unmounts (sys : MountEnv) (mountpoint : OsStr) : Prop :=
  sys.umount2 mountpoint = .ok () ∨
    sys.umount2 mountpoint = .error EPERM ∧ (sys.unmountHelper mountpoint).1.success = true

theorem drop_mounts (honest : sys.Honest) (session : Mounted) (valid : 0 ∉ session.mountpoint)
    (unmounts : sys.Unmounts session.mountpoint) (p : Process OsStr) :
    (session.drop sys p).mounts = p.mounts.erase session.mountpoint := by
  have named : cstring 0 session.mountpoint "mountpoint path contains NUL byte" = .ok () :=
    if_neg valid
  rcases unmounts with direct | ⟨refused, helped⟩
  · have detached : umount2Detach sys session.mountpoint p =
        (.ok (), { p with mounts := p.mounts.erase session.mountpoint }) := by
      simp only [umount2Detach, Bind.bind, answer, named, direct]
      rfl
    simp only [Mounted.drop, detached]
  · have detached : umount2Detach sys session.mountpoint p = (.error (.os EPERM), p) := by
      simp only [umount2Detach, Bind.bind, answer, named, refused]
      rfl
    simp only [Mounted.drop, detached, IoError.rawOsError, if_true, fuseUnmountViaHelper,
      unmounting, honest.unmounts _ helped]

/-- The direct call comes first, and takes no path with a NUL byte. -/
theorem mount_named {session : Mounted} (done : self.mount sys path p = (.ok session, p')) :
    0 ∉ session.mountpoint := by
  intro nul
  obtain ⟨mountpoint, p₁, named, done⟩ := bind_ok done
  obtain ⟨fd, p₂, mounted, done⟩ := bind_ok done
  obtain ⟨_, p₃, body, done⟩ := bind_ok done
  cases done
  have unnamed : fuseMountDirect sys mountpoint self.name self.options p₁ =
      (.error (.other "mountpoint path contains NUL byte"), p₁) := by
    simp only [fuseMountDirect, Bind.bind, answer, cstring]
    rw [if_pos nul]
  have failed := mapErr_ok mounted
  simp only [fuseMount, unnamed] at failed
  cases failed

/-- A mount that succeeds has put the file system on the mount point, and dropping the session
takes it off again wherever the direct call or the helper may. -/
theorem dropped_sessions_are_unmounted (honest : sys.Honest) {session : Mounted}
    (done : self.mount sys path p = (.ok session, p'))
    (unmounts : sys.Unmounts session.mountpoint) :
    p'.mounts = session.mountpoint :: p.mounts ∧ (session.drop sys p').mounts = p.mounts := by
  have mounted := mount_mounts honest done
  refine ⟨mounted, ?_⟩
  rw [drop_mounts honest session (mount_named done) unmounts, mounted, List.erase_cons_head]

theorem userEnv_honest : userEnv.Honest := ⟨fun _ _ _ => rfl, fun _ _ => rfl⟩

theorem dropped_sessions_are_unmounted_user :
    ∃ p', (Fuse.builder "tmpfs").mount userEnv [47] daemon = (.ok ⟨9, [47]⟩, p') ∧
      p'.mounts = [[47]] ∧
      (Mounted.drop userEnv ⟨9, [47]⟩ p').mounts = [] := by
  have done : (Fuse.builder "tmpfs").mount userEnv [47] daemon = (.ok ⟨9, [47]⟩, _) := rfl
  exact ⟨_, done, dropped_sessions_are_unmounted userEnv_honest done (.inr ⟨rfl, rfl⟩)⟩

/-- A mount that fails once the file system is mounted closes the descriptor but leaves the file
system on the mount point, with nothing to serve it. -/
theorem failed_sessions_stay_mounted (honest : sys.Honest) {e : MountError}
    (failed : self.mount sys path p = (.error e, p')) (late : e.late = true) :
    ∃ mountpoint, sys.canonicalize path = .ok mountpoint ∧ p'.mounts = mountpoint :: p.mounts ∧
      p'.fds.Perm (self.strays sys path ++ p.fds) := by
  have closed := (mount_owns sys self path p.fds p (.refl _)).2 e (congrArg Prod.fst failed)
  rw [failed] at closed
  cases named : sys.canonicalize path with
  | error error =>
      simp only [FuseSessionBuilder.mount, Bind.bind, answer, named] at failed
      cases failed
      cases late
  | ok mountpoint =>
      refine ⟨mountpoint, rfl, ?_, closed⟩
      simp only [FuseSessionBuilder.mount, named] at failed
      obtain ⟨_, _, found, failed⟩ :=
        (bind_error failed).resolve_left fun missing => nomatch congrArg Prod.fst missing
      cases found
      rcases bind_error failed with failed | ⟨fd, p₂, mounted, failed⟩
      · obtain ⟨error, rfl⟩ := mapErr_error failed
        cases late
      rcases bind_error failed with failed | ⟨_, p₃, body, failed⟩
      · rw [(setup_still fd).of failed]
        exact fuseMount_mounts honest (mapErr_ok mounted)
      · cases failed

theorem failed_sessions_stay_mounted_user :
    ∃ p', (Fuse.builder "tmpfs").mount { userEnv with setfl := .error 9 } [47] daemon =
      (.error (.setfl 9), p') ∧
      p'.mounts = [[47]] ∧ p'.fds.Perm (10 :: daemon.fds) := by
  have failed : (Fuse.builder "tmpfs").mount { userEnv with setfl := .error 9 } [47] daemon =
      (.error (.setfl 9), _) := rfl
  have honest : MountEnv.Honest { userEnv with setfl := .error 9 } :=
    ⟨fun _ _ _ => rfl, fun _ _ => rfl⟩
  obtain ⟨mountpoint, named, mounts, fds⟩ := failed_sessions_stay_mounted honest failed rfl
  cases named
  exact ⟨_, failed, mounts, fds⟩

end
end ProxmoxFuse
