import ProxmoxFuse.Directory

/-!
# What a request does

One turn of the example server, said once: the one change a request makes to the
file system, how the request is given up, and what is collected afterwards. A turn
that does not come back has an entry whose count wrapped around, or a file or a
reply buffer that panics.
-/
namespace ProxmoxFuse
open Fs

/-! ### What a request asks for -/

/-- The content of a new file. -/
def emptyFile : BlockFile := ⟨[], 4096, 8191, clearMask 0x7FFFFFFF 8191⟩

theorem new_emptyFile : BlockFile.new 4096 = .ok emptyFile := by
  have power : (4096 : Nat).isPowerOfTwo := ⟨12, rfl⟩
  simp only [BlockFile.new, power, not_true, if_false, checkedSub, emptyFile]
  rfl

structure Creation where
  parent : Nat
  name : OsStr
  mode : UInt32
  content : FsContent

def Request.creation : Request → Option Creation
  | .mkdir r => some ⟨r.parent.toNat, r.dirName, r.mode ||| S_IFDIR, .dir ∅⟩
  | .mknod r => some ⟨r.parent.toNat, r.fileName, r.mode ||| S_IFREG, .file emptyFile⟩
  | .create r => some ⟨r.parent.toNat, r.fileName, r.mode ||| S_IFREG, .file emptyFile⟩
  | _ => none

/-- The directory, the name and whether it is an `rmdir`. -/
def Request.removal : Request → Option (Nat × OsStr × Bool)
  | .unlink r => some (r.parent.toNat, r.fileName, false)
  | .rmdir r => some (r.parent.toNat, r.dirName, true)
  | _ => none

/-- The inode and how many lookups are given up. -/
def Request.forgetting : Request → Option (Nat × UInt64)
  | .forget r => some (r.inode.toNat, r.count)
  | .release r => some (r.inode.toNat, 1)
  | _ => none

/-- The inode a reply shows to the kernel, which counts as a lookup. -/
def Fs.shows (fs : Fs) : Request → Option Nat
  | .getattr r => if fs.live r.inode.toNat then some r.inode.toNat else none
  | .lookup r => fs.target r.parent.toNat r.fileName
  | _ => none

/-- The kinds the server has a handler for. -/
def Request.handled : Request → Bool
  | .getattr _ | .setattr _ | .lookup _ | .forget _ | .readdir _ | .mkdir _ | .create _ | .mknod _
  | .open _
  | .release _ | .unlink _ | .rmdir _ | .write _ | .read _ => true
  | _ => false

/-- Nothing that a request asks for can be done. -/
structure Fs.Refuses (fs : Fs) (r : Request) : Prop where
  shows : fs.shows r = none
  forgets : ∀ i n, r.forgetting = some (i, n) → fs.entryAt i = none
  creates : ∀ c, r.creation = some c → ¬ fs.Vacant c.parent c.name
  removes : ∀ p name isRmdir, r.removal = some (p, name, isRmdir) →
    fs.removable p name isRmdir = none

theorem shows_kind {fs : Fs} {r : Request} {t : Nat} (shows : fs.shows r = some t) :
    r.forgetting = none ∧ r.creation = none ∧ r.removal = none := by
  cases r with
  | getattr r => exact ⟨rfl, rfl, rfl⟩
  | lookup r => exact ⟨rfl, rfl, rfl⟩
  | _ => cases shows

theorem forgetting_kind (fs : Fs) {r : Request} {x : Nat × UInt64} (asks : r.forgetting = some x) :
    fs.shows r = none ∧ r.creation = none ∧ r.removal = none := by
  cases r with
  | forget r => exact ⟨rfl, rfl, rfl⟩
  | release r => exact ⟨rfl, rfl, rfl⟩
  | _ => cases asks

theorem creation_kind (fs : Fs) {r : Request} {c : Creation} (asks : r.creation = some c) :
    fs.shows r = none ∧ r.forgetting = none ∧ r.removal = none := by
  cases r with
  | mkdir r => exact ⟨rfl, rfl, rfl⟩
  | mknod r => exact ⟨rfl, rfl, rfl⟩
  | create r => exact ⟨rfl, rfl, rfl⟩
  | _ => cases asks

theorem removal_kind (fs : Fs) {r : Request} {x : Nat × OsStr × Bool} (asks : r.removal = some x) :
    fs.shows r = none ∧ r.forgetting = none ∧ r.creation = none := by
  cases r with
  | unlink r => exact ⟨rfl, rfl, rfl⟩
  | rmdir r => exact ⟨rfl, rfl, rfl⟩
  | _ => cases asks

theorem unhandled_kind (fs : Fs) {r : Request} (other : r.handled = false) :
    fs.shows r = none ∧ r.forgetting = none ∧ r.creation = none ∧ r.removal = none := by
  cases r with
  | statfs r | readdirPlus r | readlink r | rename r | listXAttrSize r | listXAttr r
  | getXAttrSize r | getXAttr r =>
      exact ⟨rfl, rfl, rfl, rfl⟩
  | _ => cases other

def restat (request : Setattr) (now : Duration) (e : FsEntry) : FsEntry :=
  { e with stat := applySetattr request now e.stat }

section effects
variable {τ : Type} [Timeout τ] (env : Env τ)

/-- The reply that carries the attributes of an entry. -/
def told : (r : Request) → Stat → Consume τ r
  | .getattr r, stat => .getattr r stat env.forever
  | .setattr r, stat => .setattr r stat env.forever
  | .lookup r, stat => .lookup r (toEntryParam env.forever stat)
  | .mkdir r, stat => .mkdir r (toEntryParam env.forever stat)
  | .mknod r, stat => .mknod r (toEntryParam env.forever stat)
  | .create r, stat => .create r (toEntryParam env.forever stat) 0
  | r, _ => .drop r

/-- The reply that only says it was done. -/
def acknowledged : (r : Request) → Consume τ r
  | .forget r => .forget r
  | .open r => .open r 0
  | .release r => .release r
  | .unlink r => .unlink r
  | .rmdir r => .rmdir r
  | r => .drop r

/-- A CREATE whose reply the kernel does not take leaves no lookup behind. -/
def Request.untaken (r : Request) (stat : Stat) (host : Host) : Bool :=
  match r with
  | .create r => decide ((r.reply (toEntryParam env.forever stat) 0 host).1 ≠ .ok ())
  | _ => false

/-- The change a request makes, and how it is given up. -/
inductive Effect (fs : Fs) (host : Host) : Request → Fs → (r' : Request) → Consume τ r' → Prop where
  | shown (r : Request) (t : Nat) (e : FsEntry) (shows : fs.shows r = some t)
      (there : fs.entryAt t = some e) :
      Effect fs host r (fs.update t addLookup) r (told env r e.stat)
  | restated (r : Setattr) (e : FsEntry) (here : fs.entryAt r.inode.toNat = some e) :
      Effect fs host (.setattr r) (fs.update r.inode.toNat (restat r env.now)) (.setattr r)
        (told env (.setattr r) (applySetattr r env.now e.stat))
  | forgot (r : Request) (i : Nat) (n : UInt64) (e : FsEntry) (fs' : Fs)
      (asks : r.forgetting = some (i, n)) (here : fs.entryAt i = some e)
      (forgotten : Forgotten fs i e n fs') : Effect fs host r fs' r (acknowledged r)
  | forgotNothing (r : Forget) (gone : fs.entryAt r.inode.toNat = none) :
      Effect fs host (.forget r) fs (.forget r) (.drop (.forget r))
  | made (r : Request) (c : Creation) (mid : Fs) (asks : r.creation = some c)
      (vacant : fs.Vacant c.parent c.name) (wf : Wf mid [])
      (linked : Linked fs c.parent c.name fs.takeInode.1
        (born fs.takeInode.1 c.parent c.mode c.content env.now) mid)
      (taken : r.untaken env (born fs.takeInode.1 c.parent c.mode c.content env.now).stat host =
        false) :
      Effect fs host r (mid.update fs.takeInode.1 addLookup) r
        (told env r (born fs.takeInode.1 c.parent c.mode c.content env.now).stat)
  | madeUntaken (r : Request) (c : Creation) (mid : Fs) (asks : r.creation = some c)
      (vacant : fs.Vacant c.parent c.name) (wf : Wf mid [])
      (linked : Linked fs c.parent c.name fs.takeInode.1
        (born fs.takeInode.1 c.parent c.mode c.content env.now) mid)
      (untaken : r.untaken env (born fs.takeInode.1 c.parent c.mode c.content env.now).stat host =
        true) :
      Effect fs host r mid r
      (told env r (born fs.takeInode.1 c.parent c.mode c.content env.now).stat)
  | removed (r : Request) (p : Nat) (name : OsStr) (isRmdir : Bool) (c : Nat) (fs' : Fs)
      (asks : r.removal = some (p, name, isRmdir)) (allowed : fs.removable p name isRmdir = some c)
      (swept : Swept ((fs.update p (disown name)).update c subLink) fs')
      (ends : ∀ e, fs'.entryAt c = some e → 1 < e.lookups + 1) :
      Effect fs host r fs' r (acknowledged r)
  | opened (r : Open) (e : FsEntry) (here : fs.entryAt r.inode.toNat = some e) :
      Effect fs host (.open r) fs (.open r) (acknowledged (.open r))
  | wrote (r : Write) (data : Bytes) (e : FsEntry) (old new : BlockFile) (size : Nat)
      (given : r.data env.heap = .ok data) (here : fs.entryAt r.inode.toNat = some e)
      (kind : e.content = .file old) (written : old.write env.depth data r.offset.toNat = .ok new)
      (sized : new.size = .ok size) :
      Effect fs host (.write r) (fs.update r.inode.toNat (stored new size)) (.write r)
        (.write r data.length)
  | gave (r : Read) (e : FsEntry) (file : BlockFile) (got : Nat) (buf : Bytes)
      (here : fs.entryAt r.inode.toNat = some e) (kind : e.content = .file file)
      (done : file.read (List.replicate (min r.size (1024 * 1024)) 0) r.offset.toNat =
        .ok (got, buf)) :
      Effect fs host (.read r) fs (.read r) (.read r (buf.take got))
  | listed (r r' : Readdir) (e : FsEntry) (files : Files) (state : ListState) (stop : Nat)
      (here : fs.entryAt r.inode.toNat = some e) (dir : e.content = .dir files)
      (added : addEntries r.offset.toNat r ((fs.listing e files).drop r.offset.toNat) =
        .ok (.ok state, stop, r')) :
      Effect fs host (.readdir r) fs (.readdir r') (.readdir r')
  | refused (r r' : Request) (error : IoError) (why : fs.Refuses r) :
      Effect fs host r fs r' (.ioFail r' error)
  | unknown (r : Request) (other : r.handled = false) : Effect fs host r fs r (.drop r)

/-- How a turn can end the program. -/
inductive Breaks (fs : Fs) : Request → Crash → Prop where
  | dangling (r : Request) (wild : ¬ fs.Modest) : Breaks fs r .dangling
  | data (r : Write) (fault : Fault) (torn : r.data env.heap = .error fault) :
      Breaks fs (.write r) .panic
  | write (r : Write) (data : Bytes) (e : FsEntry) (old : BlockFile) (crash : Crash)
      (given : r.data env.heap = .ok data) (here : fs.entryAt r.inode.toNat = some e)
      (kind : e.content = .file old)
      (stuck : (old.write env.depth data r.offset.toNat >>= (·.size)) = .error crash) :
      Breaks fs (.write r) crash
  | read (r : Read) (e : FsEntry) (file : BlockFile) (crash : Crash)
      (here : fs.entryAt r.inode.toNat = some e) (kind : e.content = .file file)
      (stuck : file.read (List.replicate (min r.size (1024 * 1024)) 0) r.offset.toNat =
        .error crash) :
      Breaks fs (.read r) crash
  | spent (r : Readdir) (nothing : r.request = none ∨ r.replyBuffer = none) :
      Breaks fs (.readdir r) .panic

inductive Settled (fs : Fs) (r : Request) (host : Host) : Handled → Prop where
  | done (result : Except ServerError Unit) (mid fs' : Fs) (r' : Request) (c : Consume τ r')
      (effect : Effect env fs host r mid r' c) (calls : Called τ r r') (swept : Swept mid fs')
      (wf : Wf fs' []) :
      Settled fs r host (.ok (result, fs', c.run host))
  | broken (crash : Crash) (breaks : Breaks env fs r crash) : Settled fs r host (.error crash)

variable {env} {fs : Fs} {host : Host}

theorem not_refused_kind {r : Request} (shows : fs.shows r = none)
    (forgetting : r.forgetting = none) (creation : r.creation = none) (removal : r.removal = none) :
    fs.Refuses r where
  shows := shows
  forgets i n asks := by
    rw [forgetting] at asks
    cases asks
  creates c asks := by
    rw [creation] at asks
    cases asks
  removes p name isRmdir asks := by
    rw [removal] at asks
    cases asks

theorem orStop_ok {sent : Except Fault Unit} (fails : sent ≠ .error .panic) :
    ∃ result, orStop sent = .ok result := by
  unfold orStop
  split
  · exact ⟨_, rfl⟩
  · exact ⟨_, rfl⟩
  · next panics => exact absurd rfl fails

/-- A failure that is reported to the kernel. -/
theorem failWith_settled {fs' : Fs} {r : Request} {error : IoError} (why : fs.Refuses r)
    (swept : Swept fs fs') (wf : Wf fs' []) (fails : (r.ioFail error host).1 ≠ .error .panic) :
    Settled env fs r host (failWith fs' r error host) := by
  obtain ⟨result, stops⟩ := orStop_ok fails
  have out : failWith fs' r error host =
      .ok (result, fs', (Consume.ioFail (τ := τ) r error).run host) := by
    simp only [failWith, stops, Except.ok_bind]
    rfl
  rw [out]
  exact .done result fs fs' r _ (.refused r r error why) .refl swept wf

theorem failRequest_noPanic (g : RequestGuard) (errno : Int32) (host : Host) :
    (failRequest g errno host).1 ≠ .error .panic := by
  simp only [failRequest]
  cases (replyErr g errno host).1 with
  | error e => simp [Except.mapError]
  | ok u => simp [Except.mapError]

/-! ### Handler by handler -/

theorem handleGetattr_settled (wf : Wf fs []) (r : Getattr) :
    Settled env fs (.getattr r) host (handleGetattr env fs r host) := by
  cases here : fs.entryAt r.inode.toNat with
  | none =>
      obtain ⟨error, looked⟩ := lookup_none here
      simp only [handleGetattr, looked]
      refine failWith_settled (not_refused_kind ?_ rfl rfl rfl) (.refl fs) wf
        (failRequest_noPanic _ _ _)
      simp [shows, live, here]
  | some e =>
      simp only [handleGetattr, lookup_ok here, deref_ok (entryAt_update_self here addLookup),
        Except.ok_bind, replied]
      refine .done _ (fs.update r.inode.toNat addLookup) _ (.getattr r)
        (.getattr r e.stat env.forever)
        (.shown (.getattr r) r.inode.toNat e ?_ here) .refl (.refl _)
          (wf.update here (alike_addLookup e))
      simp [shows, live, here]

theorem setGiven_keeps {α β : Type} (get : Stat → β) (given : Option α) {set : α → Stat → Stat}
    (keeps : ∀ value stat, get (set value stat) = get stat) (stat : Stat) :
    get (stat.setGiven given set) = get stat := by
  cases given with
  | none => rfl
  | some value => exact keeps value stat

theorem applySetattr_ino (request : Setattr) (now : Duration) (stat : Stat) :
    (applySetattr request now stat).stIno = stat.stIno := by
  simp only [applySetattr]
  iterate 7 refine (setGiven_keeps (·.stIno) _ (by intros; rfl) _).trans ?_
  rfl

theorem alike_restat (request : Setattr) (now : Duration) (e : FsEntry) :
    Alike e (restat request now e) :=
  ⟨rfl, rfl, rfl, applySetattr_ino request now e.stat, fun _ => rfl, rfl⟩

/-- A SETATTR of an entry that is there. -/
theorem handleSetattrRequest_live (env : Env τ) (host : Host) (wf : Wf fs []) {r : Setattr}
    {e : FsEntry} (here : fs.entryAt r.inode.toNat = some e) :
    ∃ fs', handleSetattrRequest env fs r host =
        replied fs' (r.reply (applySetattr r env.now e.stat) env.forever host) ∧
      Wf fs' [] ∧ Swept (fs.update r.inode.toNat (restat r env.now)) fs' := by
  have restated := wf.update here (alike_restat r env.now e)
  obtain ⟨fs', dropped, wf', swept⟩ :=
    restated.dropGuard (entryAt_update_self here (restat r env.now))
  have same : (fs.update r.inode.toNat addLookup).update r.inode.toNat (restat r env.now) =
      (fs.update r.inode.toNat (restat r env.now)).update r.inode.toNat addLookup := by
    rw [Fs.update_update, Fs.update_update]
    rfl
  have looked : handleSetattr fs r env.now =
      (.ok r.inode.toNat, (fs.update r.inode.toNat addLookup).update r.inode.toNat
        (restat r env.now)) := by
    simp only [handleSetattr, lookup_ok here]
    rfl
  have there := entryAt_update_self (entryAt_update_self here (restat r env.now)) addLookup
  refine ⟨fs', ?_, wf', swept⟩
  simp only [handleSetattrRequest, looked, same, deref_ok there, Except.ok_bind, dropped]
  rfl

theorem handleSetattrRequest_settled (wf : Wf fs []) (r : Setattr) :
    Settled env fs (.setattr r) host (handleSetattrRequest env fs r host) := by
  cases here : fs.entryAt r.inode.toNat with
  | none =>
      obtain ⟨error, looked⟩ := lookup_none here
      simp only [handleSetattrRequest, handleSetattr, looked]
      exact failWith_settled (not_refused_kind rfl rfl rfl rfl) (.refl fs) wf
        (failRequest_noPanic _ _ _)
  | some e =>
      obtain ⟨fs', done, wf', swept⟩ := handleSetattrRequest_live env host wf here
      rw [done]
      exact .done _ _ fs' (.setattr r) (.setattr r (applySetattr r env.now e.stat) env.forever)
        (.restated r e here) .refl
        swept wf'

theorem handleLookup_settled (wf : Wf fs []) (r : Lookup) :
    Settled env fs (.lookup r) host (handleLookup env fs r host) := by
  obtain ⟨out, looked, wf', found⟩ := lookupAt_spec wf r.parent.toNat r.fileName
  simp only [handleLookup, looked, Except.ok_bind]
  cases found with
  | missing error fs' nowhere swept =>
      exact failWith_settled (not_refused_kind nowhere rfl rfl rfl) swept wf'
        (failRequest_noPanic _ _ _)
  | found t fs' leads swept =>
      obtain ⟨e, there⟩ := target_live leads
      cases after : fs'.entryAt t with
      | none =>
          simp only [deref, after]
          refine .broken .dangling (.dangling _ fun modest => ?_)
          obtain ⟨e', still, _⟩ := modest.survives there swept
          rw [after] at still
          cases still
      | some e' =>
          obtain ⟨e₁, before, fades⟩ := swept.origin after
          rw [entryAt_update_self there] at before
          cases before
          have stat : e'.stat = e.stat := by
            rw [fades.kept]
            rfl
          simp only [deref_ok after, Except.ok_bind, stat]
          exact .done _ _ fs' (.lookup r) (.lookup r (toEntryParam env.forever e.stat))
            (.shown (.lookup r) t e leads there)
            .refl swept wf'

theorem handleForget_settled (wf : Wf fs []) (r : Forget) :
    Settled env fs (.forget r) host (handleForget fs r host) := by
  cases here : fs.entryAt r.inode.toNat with
  | none =>
      obtain ⟨error, forgot⟩ := forget_gone here r.count
      simp only [handleForget, forgot, Except.ok_bind]
      exact .done _ fs fs (.forget r) (.drop (.forget r)) (.forgotNothing r here) .refl
        (.refl fs) wf
  | some e =>
      obtain ⟨fs', forgot, wf', forgotten⟩ := forget_live wf here r.count
      simp only [handleForget, forgot, Except.ok_bind]
      exact .done _ fs' fs' (.forget r) (.forget r)
        (.forgot (.forget r) _ _ e fs' rfl here forgotten) .refl (.refl fs') wf'

theorem handleRelease_settled (wf : Wf fs []) (r : Release) :
    Settled env fs (.release r) host (handleRelease fs r host) := by
  cases here : fs.entryAt r.inode.toNat with
  | none =>
      obtain ⟨error, forgot⟩ := forget_gone here 1
      simp only [handleRelease, forgot, Except.ok_bind]
      refine failWith_settled ⟨rfl, ?_, ?_, ?_⟩ (.refl fs) wf (failRequest_noPanic _ _ _)
      · intro i n asks
        cases asks
        exact here
      · intro c asks
        cases asks
      · intro p name isRmdir asks
        cases asks
  | some e =>
      obtain ⟨fs', forgot, wf', forgotten⟩ := forget_live wf here 1
      simp only [handleRelease, forgot, Except.ok_bind, replied]
      exact .done _ fs' fs' (.release r) (.release r)
        (.forgot (.release r) _ _ e fs' rfl here forgotten) .refl
        (.refl fs') wf'

theorem handleOpen_settled (wf : Wf fs []) (r : Open) :
    Settled env fs (.open r) host (handleOpen fs r host) := by
  cases here : fs.entryAt r.inode.toNat with
  | none =>
      obtain ⟨error, looked⟩ := lookup_none here
      simp only [handleOpen, looked]
      exact failWith_settled (not_refused_kind rfl rfl rfl rfl) (.refl fs) wf
        (failRequest_noPanic _ _ _)
  | some e =>
      obtain ⟨fs', dropped, wf', swept⟩ := wf.dropGuard here
      simp only [handleOpen, lookup_ok here, dropped, Except.ok_bind]
      exact .done _ fs fs' (.open r) (.open r 0) (.opened r e here) .refl swept wf'

/-- A request that creates nothing. -/
theorem refuses_creation {r : Request} {c : Creation} (asks : r.creation = some c)
    (shows : fs.shows r = none) (forgetting : r.forgetting = none) (removal : r.removal = none)
    (taken : ¬ fs.Vacant c.parent c.name) :
    fs.Refuses r where
  shows := shows
  forgets i n asks' := by
    rw [forgetting] at asks'
    cases asks'
  creates c' asks' := by
    rw [asks] at asks'
    cases asks'
    exact taken
  removes p name isRmdir asks' := by
    rw [removal] at asks'
    cases asks'

/-- What is new is there for its reply. -/
theorem made_entry {mid fs' : Fs} {p i : Nat} {name : OsStr} {mode : UInt32} {content : FsContent}
    {now : Duration} (linked : Linked fs p name i (born i p mode content now) mid)
    (swept : Swept (mid.update i addLookup) fs') :
    ∃ e, fs'.entryAt i = some e ∧ Fades (addLookup (born i p mode content now)) (some e) :=
  swept.lives (entryAt_update_self linked.new addLookup) (show (1 : UInt64) < 0 + 1 + 1 by decide)

theorem handleMkdir_settled (wf : Wf fs []) (r : Mkdir) :
    Settled env fs (.mkdir r) host (handleMkdir env fs r host) := by
  have empty : ∀ key, (FsContent.dir ∅).name? key = none := fun key => Std.ExtTreeMap.getElem?_empty
  obtain ⟨out, created, wf', made⟩ :=
    doCreate_spec wf r.parent.toNat r.dirName (r.mode ||| S_IFDIR) env.now empty
  simp only [handleMkdir, mkdir, created, Except.ok_bind]
  cases made with
  | refused error fs' taken swept =>
      exact failWith_settled (refuses_creation (r := .mkdir r) rfl rfl rfl rfl taken) swept wf'
        (failRequest_noPanic _ _ _)
  | made mid fs' vacant wfMid linked swept =>
      obtain ⟨e, there, fades⟩ := made_entry linked swept
      have stat : e.stat = (born fs.takeInode.1 r.parent.toNat (r.mode ||| S_IFDIR) (.dir ∅)
          env.now).stat := by
        rw [fades.kept]
        rfl
      simp only [replyNew, deref_ok there, Except.ok_bind, replied, stat]
      exact .done _ _ fs' (.mkdir r)
        (.mkdir r (toEntryParam env.forever
          (born fs.takeInode.1 r.parent.toNat (r.mode ||| S_IFDIR) (.dir ∅) env.now).stat))
        (.made (.mkdir r) _ mid rfl vacant wfMid linked rfl) .refl swept wf'

theorem handleMknod_settled (wf : Wf fs []) (r : Mknod) :
    Settled env fs (.mknod r) host (handleMknod env fs r host) := by
  obtain ⟨out, created, wf', made⟩ :=
    doCreate_spec wf r.parent.toNat r.fileName (r.mode ||| S_IFREG) env.now
      (fun _ => FsContent.name?_file emptyFile _)
  simp only [handleMknod, Fs.create, new_emptyFile, created, Except.ok_bind]
  cases made with
  | refused error fs' taken swept =>
      exact failWith_settled (refuses_creation (r := .mknod r) rfl rfl rfl rfl taken) swept wf'
        (failRequest_noPanic _ _ _)
  | made mid fs' vacant wfMid linked swept =>
      obtain ⟨e, there, fades⟩ := made_entry linked swept
      have stat : e.stat = (born fs.takeInode.1 r.parent.toNat (r.mode ||| S_IFREG)
          (.file emptyFile) env.now).stat := by
        rw [fades.kept]
        rfl
      simp only [replyNew, deref_ok there, Except.ok_bind, replied, stat]
      exact .done _ _ fs' (.mknod r)
        (.mknod r (toEntryParam env.forever
          (born fs.takeInode.1 r.parent.toNat (r.mode ||| S_IFREG) (.file emptyFile) env.now).stat))
        (.made (.mknod r) _ mid rfl vacant wfMid linked rfl) .refl swept wf'

theorem handleCreate_settled (wf : Wf fs []) (r : Create) :
    Settled env fs (.create r) host (handleCreate env fs r host) := by
  obtain ⟨out, created, wf', made⟩ :=
    doCreate_spec wf r.parent.toNat r.fileName (r.mode ||| S_IFREG) env.now
      (fun _ => FsContent.name?_file emptyFile _)
  simp only [handleCreate, Fs.create, new_emptyFile, created, Except.ok_bind]
  cases made with
  | refused error fs' taken swept =>
      exact failWith_settled (refuses_creation (r := .create r) rfl rfl rfl rfl taken) swept wf'
        (failRequest_noPanic _ _ _)
  | made mid fs' vacant wfMid linked swept =>
      obtain ⟨e, there, fades⟩ := made_entry linked swept
      have stat : e.stat = (born fs.takeInode.1 r.parent.toNat (r.mode ||| S_IFREG)
          (.file emptyFile) env.now).stat := by
        rw [fades.kept]
        rfl
      simp only [deref_ok there, Except.ok_bind, stat]
      generalize sent : r.reply (toEntryParam env.forever
        (born fs.takeInode.1 r.parent.toNat (r.mode ||| S_IFREG) (.file emptyFile) env.now).stat) 0
          host = reply
      obtain ⟨answer, host'⟩ := reply
      have run : host' = (told env (.create r)
          (born fs.takeInode.1 r.parent.toNat (r.mode ||| S_IFREG) (.file emptyFile)
            env.now).stat).run host :=
        (congrArg Prod.snd sent).symm
      cases answer with
      | ok u =>
          -- the lookup of the kernel is counted before the guard is given up
          obtain ⟨fs₂, dropped, wf₂, swept₂⟩ := Wf.dropGuard wf' there
          simp only [incrementLookup, deref_ok there, Except.ok_bind, pure_bind, dropped]
          rw [run]
          refine .done _ _ fs₂ (.create r) _ (.made (.create r) _ mid rfl vacant wfMid linked ?_)
            .refl
            (swept.trans swept₂) wf₂
          have answered := congrArg Prod.fst sent
          simpa [Request.untaken] using answered
      | error error =>
          obtain ⟨fs₂, dropped, wf₂, swept₂⟩ := swept.dropGuard wf' linked.new there
          simp only [Except.ok_bind, dropped]
          rw [run]
          refine .done _ mid fs₂ (.create r) _
            (.madeUntaken (.create r) _ mid rfl vacant wfMid linked ?_) .refl swept₂ wf₂
          have failed := congrArg Prod.fst sent
          simp only [Request.untaken, failed]
          rfl

/-- A request that removes nothing. -/
theorem refuses_removal {r : Request} {p : Nat} {name : OsStr} {isRmdir : Bool}
    (asks : r.removal = some (p, name, isRmdir)) (kept : fs.removable p name isRmdir = none) :
    fs.Refuses r where
  shows := (removal_kind fs asks).1
  forgets i n asks' := by
    cases (removal_kind fs asks).2.1.symm.trans asks'
  creates c asks' := by
    cases (removal_kind fs asks).2.2.symm.trans asks'
  removes p' name' isRmdir' asks' := by
    rw [asks] at asks'
    cases asks'
    exact kept

/-- What `handle_unlink` and `handle_rmdir` share. -/
theorem removal_settled (wf : Wf fs []) {r : Request} {p : Nat} {name : OsStr} {isRmdir : Bool}
    (asks : r.removal = some (p, name, isRmdir)) {sent : Except IoError Unit × Host}
    (replies : sent.2 = (acknowledged r : Consume τ r).run host)
    (fails : ∀ error, (r.ioFail error host).1 ≠ .error .panic) :
    Settled env fs r host (do
      match ← fs.unlink p name isRmdir with
      | (.ok (), self) => replied self sent
      | (.error e, self) => failWith self r e host) := by
  obtain ⟨out, unlinked, wf', done⟩ := unlink_spec wf p name isRmdir
  simp only [unlinked, Except.ok_bind]
  cases done with
  | refused error fs' kept swept =>
      exact failWith_settled (refuses_removal asks kept) swept wf' (fails error)
  | done c fs' allowed swept ends =>
      simp only [replied, replies]
      exact .done _ fs' fs' r (acknowledged r)
        (.removed r p name isRmdir c fs' asks allowed swept ends) .refl
        (.refl fs') wf'

theorem handleUnlink_settled (wf : Wf fs []) (r : Unlink) :
    Settled env fs (.unlink r) host (handleUnlink fs r host) :=
  removal_settled wf (r := .unlink r) rfl rfl fun _ => failRequest_noPanic _ _ _

theorem handleRmdir_settled (wf : Wf fs []) (r : Rmdir) :
    Settled env fs (.rmdir r) host (handleRmdir fs r host) :=
  removal_settled wf (r := .rmdir r) rfl rfl fun _ => failRequest_noPanic _ _ _

theorem handleWrite_settled (wf : Wf fs []) (r : Write) :
    Settled env fs (.write r) host (handleWrite env fs r host) := by
  cases given : r.data env.heap with
  | error fault =>
      simp only [handleWrite, writeData, given]
      exact .broken .panic (.data r fault given)
  | ok data =>
      have view := write_spec wf env.depth r.inode.toNat data r.offset.toNat
      simp only [handleWrite, writeData, given, Except.ok_bind]
      generalize fs.write env.depth r.inode.toNat data r.offset.toNat = out at view
      cases view with
      | stored e old new size fs' here kind written sized wf' swept =>
          simp only [Except.ok_bind, replied]
          exact .done _ _ fs' (.write r) _
            (.wrote r data e old new size given here kind written sized) .refl swept wf'
      | refused error fs' none wf' swept =>
          simp only [Except.ok_bind]
          exact failWith_settled (not_refused_kind rfl rfl rfl rfl) swept wf'
            (failRequest_noPanic _ _ _)
      | crashed e old crash here kind stuck =>
          exact .broken crash (.write r data e old crash given here kind stuck)

theorem handleRead_settled (wf : Wf fs []) (r : Read) :
    Settled env fs (.read r) host (handleRead fs r host) := by
  have view :=
    read_spec wf r.inode.toNat (List.replicate (min r.size (1024 * 1024)) 0) r.offset.toNat
  simp only [handleRead]
  generalize fs.read r.inode.toNat (List.replicate (min r.size (1024 * 1024)) 0) r.offset.toNat =
    out at view
  cases view with
  | read e file got fs' here kind done wf' swept =>
      simp only [Except.ok_bind, replied]
      exact .done _ fs fs' (.read r) _ (.gave r e file got.1 got.2 here kind done) .refl swept wf'
  | refused error fs' none wf' swept =>
      simp only [Except.ok_bind]
      exact failWith_settled (not_refused_kind rfl rfl rfl rfl) swept wf'
        (failRequest_noPanic _ _ _)
  | crashed e file crash here kind stuck =>
      exact .broken crash (.read r e file crash here kind stuck)

/-- The failure of a listing, which may have collected entries before. -/
theorem failWith_listing {fs' : Fs} {r r' : Readdir} {error : IoError}
    (calls : Called τ (.readdir r) (.readdir r')) (kept : r'.request = r.request)
    (swept : Swept fs fs') (wf : Wf fs' []) :
    Settled env fs (.readdir r) host (failWith fs' (.readdir r') error host) := by
  cases request : r.request with
  | none =>
      have panics : Request.ioFail (.readdir r') error host = (.error .panic, host) := by
        simp only [Request.ioFail, Request.fail, ReaddirCommon.fail, kept, request]
      simp only [failWith, panics, orStop]
      exact .broken .panic (.spent r (.inl request))
  | some g =>
      have sent : Request.ioFail (.readdir r') error host =
          failRequest g (error.rawOsError.getD EIO) host := by
        simp only [Request.ioFail, Request.fail, ReaddirCommon.fail, kept, request]
      have fails : (Request.ioFail (.readdir r') error host).1 ≠ .error .panic := by
        rw [sent]
        exact failRequest_noPanic _ _ _
      obtain ⟨result, stops⟩ := orStop_ok fails
      simp only [failWith, stops, Except.ok_bind]
      exact .done result fs fs' (.readdir r') (.ioFail (.readdir r') error)
        (.refused (.readdir r) (.readdir r') error (not_refused_kind rfl rfl rfl rfl)) calls swept
          wf

theorem readdirReply_noPanic {r : Readdir} {g : RequestGuard} {buf : ReplyBuf}
    (request : r.request = some g) (buffer : r.replyBuffer = some buf) (host : Host) :
    (ReaddirCommon.reply r host).1 ≠ .error .panic := by
  simp only [ReaddirCommon.reply, request, buffer]
  cases (ProxmoxFuse.dropGuard (replyOk g buf.filledData host)).1 with
  | error e => simp [Except.mapError]
  | ok u => simp [Except.mapError]

theorem readdirReply_panics {r : Readdir} (spent : r.request = none ∨ r.replyBuffer = none) :
    (ReaddirCommon.reply r host).1 = .error .panic := by
  cases request : r.request with
  | none => simp only [ReaddirCommon.reply, request]
  | some g =>
      rcases spent with gone | gone
      · rw [request] at gone
        cases gone
      · simp only [ReaddirCommon.reply, request, gone]

theorem handleReaddirRequest_settled (wf : Wf fs []) (r : Readdir) :
    Settled env fs (.readdir r) host (handleReaddirRequest fs r host) := by
  have view := handleReaddir_spec wf r
  simp only [handleReaddirRequest]
  generalize handleReaddir fs r = out at view
  cases view with
  | listed e files result stop r' fs' here dir added wf' swept =>
      have calls := addEntries_called τ added
      obtain ⟨kept, filled⟩ := addEntries_keeps added
      simp only [Except.ok_bind]
      cases result with
      | error error => exact failWith_listing calls kept swept wf'
      | ok state =>
          by_cases spent : r'.request = none ∨ r'.replyBuffer = none
          · simp only [ListState.finish, Except.map, readdirReply_panics spent, orStop]
            refine .broken .panic (.spent r (spent.imp (kept.symm.trans ·) fun gone => ?_))
            rw [gone] at filled
            exact Option.not_isSome_iff_eq_none.mp (by rw [← filled]; exact Bool.false_ne_true)
          · obtain ⟨request, buffer⟩ := not_or.mp spent
            obtain ⟨g, request⟩ := Option.ne_none_iff_exists'.mp request
            obtain ⟨buf, buffer⟩ := Option.ne_none_iff_exists'.mp buffer
            obtain ⟨out, stops⟩ := orStop_ok (readdirReply_noPanic request buffer host)
            simp only [ListState.finish, Except.map, stops, Except.ok_bind]
            exact .done out fs fs' (.readdir r') (.readdir r')
              (.listed r r' e files state stop here dir added) calls swept
              wf'
  | orphan e error front stop r' fs' here gone added wf' swept =>
      exact failWith_listing (addEntries_called τ added) (addEntries_keeps added).1 swept wf'
  | refused error fs' none wf' swept => exact failWith_listing .refl rfl swept wf'
  | crashed e files crash here dir crashes =>
      obtain ⟨rfl, gone⟩ := addEntries_panics crashes
      exact .broken .panic (.spent r (.inr gone))
  | dangling wild => exact .broken .dangling (.dangling _ wild)

/-- Every turn of the server does what its request asks for, or refuses it. -/
theorem handle_settled (wf : Wf fs []) (r : Request) :
    Settled env fs r host (handle env fs r host) := by
  cases r with
  | getattr r => exact handleGetattr_settled wf r
  | setattr r => exact handleSetattrRequest_settled wf r
  | lookup r => exact handleLookup_settled wf r
  | forget r => exact handleForget_settled wf r
  | readdir r => exact handleReaddirRequest_settled wf r
  | mkdir r => exact handleMkdir_settled wf r
  | create r => exact handleCreate_settled wf r
  | mknod r => exact handleMknod_settled wf r
  | «open» r => exact handleOpen_settled wf r
  | release r => exact handleRelease_settled wf r
  | unlink r => exact handleUnlink_settled wf r
  | rmdir r => exact handleRmdir_settled wf r
  | write r => exact handleWrite_settled wf r
  | read r => exact handleRead_settled wf r
  | statfs r => exact .done _ fs fs (.statfs r) _ (.unknown (.statfs r) rfl) .refl (.refl fs) wf
  | readdirPlus r =>
      exact .done _ fs fs (.readdirPlus r) _ (.unknown (.readdirPlus r) rfl) .refl (.refl fs) wf
  | readlink r =>
      exact .done _ fs fs (.readlink r) _ (.unknown (.readlink r) rfl) .refl (.refl fs) wf
  | rename r => exact .done _ fs fs (.rename r) _ (.unknown (.rename r) rfl) .refl (.refl fs) wf
  | listXAttrSize r =>
      exact .done _ fs fs (.listXAttrSize r) _ (.unknown (.listXAttrSize r) rfl) .refl (.refl fs) wf
  | listXAttr r =>
      exact .done _ fs fs (.listXAttr r) _ (.unknown (.listXAttr r) rfl) .refl (.refl fs) wf
  | getXAttrSize r =>
      exact .done _ fs fs (.getXAttrSize r) _ (.unknown (.getXAttrSize r) rfl) .refl (.refl fs) wf
  | getXAttr r =>
      exact .done _ fs fs (.getXAttr r) _ (.unknown (.getXAttr r) rfl) .refl (.refl fs) wf

end effects
end ProxmoxFuse
