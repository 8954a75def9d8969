import ProxmoxFuse.FsOps
import ProxmoxFuse.Limits
import ProxmoxFuse.Obligations
import ProxmoxFuse.TmpfsServer

/-!
# Listing a directory

A directory reads as one list: its files by name, then its parent, then itself. A
READDIR offers what follows its offset to the reply buffer, each entry with the
offset that follows it, until one does not fit.
-/
namespace ProxmoxFuse
open Fs

/-- No count is about to wrap around. -/
def Fs.Modest (fs : Fs) : Prop := ∀ i e, fs.entryAt i = some e → e.lookups.toNat + 2 < 2 ^ 64

theorem counted_twice {n : UInt64} (modest : n.toNat + 2 < 2 ^ 64) : 1 < n + 1 + 1 := by
  rw [UInt64.lt_iff_toNat_lt, UInt64.toNat_add, UInt64.toNat_add]
  have one : (1 : UInt64).toNat = 1 := rfl
  rw [one]
  omega

/-! ### Entries into a buffer -/

/-- Entries are added, each with the offset that follows it, until one is not. -/
def addEntries (offset : Nat) (r : Readdir) :
    List (OsStr × Stat) → Except Crash (Except IoError ListState × Nat × Readdir)
  | [] => .ok (.ok .more, offset, r)
  | (name, stat) :: rest => do
      let result ← listed (Readdir.addEntry r name stat (UInt64.ofNat (offset + 1))).1
      if result = .ok .more then
        addEntries (offset + 1) (Readdir.addEntry r name stat (UInt64.ofNat (offset + 1))).2 rest
      else .ok (result, offset + 1, (Readdir.addEntry r name stat (UInt64.ofNat (offset + 1))).2)

theorem addEntries_append (offset : Nat) (r : Readdir) (front back : List (OsStr × Stat)) :
    addEntries offset r (front ++ back) = addEntries offset r front >>= fun out =>
      if out.1 = .ok .more then addEntries out.2.1 out.2.2 back else .ok out := by
  induction front generalizing offset r with
  | nil => rfl
  | cons x rest ih =>
      simp only [addEntries, List.cons_append, bind_assoc]
      congr 1
      funext result
      split
      · exact ih ..
      · next stops => exact (if_neg stops).symm

/-- Without a stop every entry was added. -/
theorem addEntries_more {offset stop : Nat} {r r' : Readdir} {l : List (OsStr × Stat)}
    (more : addEntries offset r l = .ok (.ok .more, stop, r')) : stop = offset + l.length := by
  induction l generalizing offset r with
  | nil =>
      cases more
      rfl
  | cons x rest ih =>
      simp only [addEntries] at more
      cases added : listed (Readdir.addEntry r x.1 x.2 (UInt64.ofNat (offset + 1))).1 with
      | error crash =>
          rw [added] at more
          cases more
      | ok result =>
          simp only [added, Except.ok_bind] at more
          split at more
          · have later := ih more
            rw [List.length_cons]
            omega
          · next stops =>
              cases more
              exact absurd rfl stops

/-- One more entry, or the end. -/
theorem addEntries_cases {offset stop : Nat} {r r' : Readdir} {name : OsStr} {stat : Stat}
    {rest : List (OsStr × Stat)} {result : Except IoError ListState}
    (added : addEntries offset r ((name, stat) :: rest) = .ok (result, stop, r')) :
    addEntries (offset + 1) (Readdir.addEntry r name stat (UInt64.ofNat (offset + 1))).2 rest =
      .ok (result, stop, r') ∨
      r' = (Readdir.addEntry r name stat (UInt64.ofNat (offset + 1))).2 := by
  simp only [addEntries] at added
  cases first : listed (Readdir.addEntry r name stat (UInt64.ofNat (offset + 1))).1 with
  | error crash =>
      rw [first] at added
      cases added
  | ok result =>
      simp only [first, Except.ok_bind] at added
      split at added
      · exact .inl added
      · cases added
        exact .inr rfl

/-- Adding entries is a run of calls on the request. -/
theorem addEntries_called (τ : Type) [Timeout τ] {offset stop : Nat} {r r' : Readdir}
    {l : List (OsStr × Stat)} {result : Except IoError ListState}
    (added : addEntries offset r l = .ok (result, stop, r')) :
    Called τ (.readdir r) (.readdir r') := by
  induction l generalizing offset r with
  | nil =>
      cases added
      exact .refl
  | cons x rest ih =>
      have first : ∃ call : Call τ (.readdir r),
          call.after = .readdir (Readdir.addEntry r x.1 x.2 (UInt64.ofNat (offset + 1))).2 := 
        ⟨.readdirAdd r x.1 x.2 (UInt64.ofNat (offset + 1)), rfl⟩
      rcases addEntries_cases added with more | rfl
      · exact .head first (ih more)
      · exact .single first

theorem addEntries_keeps {offset stop : Nat} {r r' : Readdir} {l : List (OsStr × Stat)}
    {result : Except IoError ListState} (added : addEntries offset r l = .ok (result, stop, r')) :
    r'.request = r.request ∧ r'.replyBuffer.isSome = r.replyBuffer.isSome := by
  induction l generalizing offset r with
  | nil =>
      cases added
      exact ⟨rfl, rfl⟩
  | cons x rest ih =>
      have first := Readdir.addEntry_keeps r x.1 x.2 (UInt64.ofNat (offset + 1))
      rcases addEntries_cases added with more | rfl
      · exact ⟨(ih more).1.trans first.1, (ih more).2.trans first.2⟩
      · exact first

/-- Only a request whose reply buffer is gone panics. -/
theorem addEntry_panics {r : Readdir} {name : OsStr} {stat : Stat} {next : UInt64} {crash : Crash}
    (crashes : listed (Readdir.addEntry r name stat next).1 = .error crash) :
    crash = .panic ∧ r.replyBuffer = none := by
  cases buffer : r.replyBuffer with
  | none =>
      refine ⟨?_, rfl⟩
      unfold listed at crashes
      split at crashes
      · cases crashes
      · cases crashes
      · cases crashes
      · cases crashes
        rfl
  | some buf =>
      have view := ReaddirEntry.added r buf buffer ⟨name, stat, next⟩
      generalize Readdir.addEntry r name stat next = out at view crashes
      cases view with
      | invalid e nul => cases crashes
      | full valid short => cases crashes
      | ok valid room buf' size data => cases crashes

theorem addEntries_panics {offset : Nat} {r : Readdir} {l : List (OsStr × Stat)} {crash : Crash}
    (crashes : addEntries offset r l = .error crash) : crash = .panic ∧ r.replyBuffer = none := by
  induction l generalizing offset r with
  | nil => cases crashes
  | cons x rest ih =>
      simp only [addEntries] at crashes
      cases first : listed (Readdir.addEntry r x.1 x.2 (UInt64.ofNat (offset + 1))).1 with
      | error other =>
          rw [first] at crashes
          cases crashes
          exact addEntry_panics first
      | ok result =>
          simp only [first, Except.ok_bind] at crashes
          split at crashes
          · obtain ⟨panics, gone⟩ := ih crashes
            have kept := (Readdir.addEntry_keeps r x.1 x.2 (UInt64.ofNat (offset + 1))).2
            rw [gone] at kept
            exact ⟨panics, Option.not_isSome_iff_eq_none.mp
              (by rw [← kept]; exact Bool.false_ne_true)⟩
          · cases crashes

/-! ### What a directory reads as -/

def Fs.statOf (fs : Fs) (i : Nat) : Stat := ((fs.entryAt i).map FsEntry.stat).getD Stat.zeroed

def Fs.fileStats (fs : Fs) (files : List (OsStr × Nat)) : List (OsStr × Stat) :=
  files.map fun file => (file.1, fs.statOf file.2)

def Fs.listing (fs : Fs) (e : FsEntry) (files : Files) : List (OsStr × Stat) :=
  fs.fileStats files.toList ++ [(dotdot, fs.statOf e.parent), (dot, e.stat)]

namespace Fs
variable {fs fs' : Fs} {loose : List Nat} {i : Nat} {e : FsEntry} {files : Files} {r r' : Readdir}

theorem statOf_entry (here : fs.entryAt i = some e) : fs.statOf i = e.stat := by
  rw [statOf, here]
  rfl

/-- A file that is linked is as it was after it has been listed. -/
theorem listInode_linked (wf : Wf fs loose) (here : fs.entryAt i = some e) (linked : e.links ≠ 0)
    (r : Readdir) (name : OsStr) (next : Nat) :
    listInode fs r name i next =
      listed (Readdir.addEntry r name (fs.statOf i) (UInt64.ofNat next)).1 >>= fun result =>
        .ok (result, (Readdir.addEntry r name (fs.statOf i) (UInt64.ofNat next)).2, fs) := by
  rw [statOf_entry here]
  simp only [listInode, lookup_ok here, deref_ok (entryAt_update_self here addLookup),
    Except.ok_bind, dropGuard_kept wf here (.inr linked)]
  rfl

theorem listFiles_eq (wf : Wf fs loose) {l : List (OsStr × Nat)}
    (linked : ∀ file ∈ l, ∃ e, fs.entryAt file.2 = some e ∧ e.links ≠ 0) (next : Nat)
    (r : Readdir) :
    listFiles l next fs r = addEntries next r (fs.fileStats l) >>= fun out =>
      .ok (out.1, out.2.1, out.2.2, fs) := by
  induction l generalizing next r with
  | nil => rfl
  | cons file rest ih =>
      obtain ⟨e, here, one⟩ := linked file List.mem_cons_self
      have later := ih fun file member => linked file (List.mem_cons_of_mem _ member)
      simp only [listFiles, listInode_linked wf here one, bind_assoc, Except.ok_bind, fileStats,
        List.map_cons, addEntries]
      congr 1
      funext result
      split
      · rw [if_pos rfl]
        exact later ..
      · next other =>
          rw [if_neg fun more => other more]
          rfl

/-- An entry that is there is listed, and nothing else is left of the lookup. -/
theorem listInode_live (wf : Wf fs loose) (here : fs.entryAt i = some e) :
    ∃ fs', Wf fs' loose ∧ Swept fs fs' ∧ ∀ (r : Readdir) (name : OsStr) (next : Nat),
      listInode fs r name i next =
      listed (Readdir.addEntry r name (fs.statOf i) (UInt64.ofNat next)).1 >>= fun result =>
        .ok (result, (Readdir.addEntry r name (fs.statOf i) (UInt64.ofNat next)).2, fs') := by
  obtain ⟨fs', dropped, wf', swept⟩ := wf.dropGuard here
  refine ⟨fs', wf', swept, ?_⟩
  intro r name next
  rw [statOf_entry here]
  simp only [listInode, lookup_ok here, deref_ok (entryAt_update_self here addLookup),
    Except.ok_bind, dropped]
  rfl

theorem listInode_gone (gone : fs.entryAt i = none) (r : Readdir) (name : OsStr) (next : Nat) :
    ∃ error, listInode fs r name i next = .ok (.error error, r, fs) := by
  obtain ⟨error, looked⟩ := lookup_none gone
  refine ⟨error, ?_⟩
  simp only [listInode, looked]

theorem listing_drop (fs : Fs) (e : FsEntry) (files : Files) (offset : Nat) :
    (fs.listing e files).drop offset = fs.fileStats (files.toList.drop offset) ++
      [(dotdot, fs.statOf e.parent), (dot, e.stat)].drop (offset - files.size) := by
  rw [listing, List.drop_append, fileStats, fileStats, List.map_drop, List.length_map,
    Std.ExtTreeMap.length_toList]

/-- What a listing of `l` from an offset comes to. -/
inductive Listing (fs : Fs) (e : FsEntry) (l : List (OsStr × Stat)) (offset : Nat) (r : Readdir) :
    Except Crash (Except IoError Unit × Readdir × Fs) → Prop where
  | done (result : Except IoError ListState) (stop : Nat) (r' : Readdir) (fs' : Fs)
      (added : addEntries offset r l = .ok (result, stop, r')) (wf : Wf fs' [])
      (swept : Swept fs fs') :
      Listing fs e l offset r (.ok (ListState.finish result, r', fs'))
  -- the parent has been deleted
  | orphan (error : IoError) (front : List (OsStr × Stat)) (stop : Nat) (r' : Readdir)
      (added : addEntries offset r front = .ok (.ok .more, stop, r'))
      (gone : fs.entryAt e.parent = none) :
      Listing fs e l offset r (.ok (.error error, r', fs))
  | crashed (crash : Crash) (crashes : addEntries offset r l = .error crash) :
      Listing fs e l offset r (.error crash)
  -- the directory itself has been collected with its parent
  | dangling (wild : ¬ 1 < e.lookups + 1) : Listing fs e l offset r (.error .dangling)

theorem Wf.files_linked (wf : Wf fs loose) (here : fs.entryAt i = some e)
    (dir : e.content = .dir files) :
    ∀ file ∈ files.toList, ∃ e', fs.entryAt file.2 = some e' ∧ e'.links ≠ 0 := by
  rintro ⟨name, c⟩ listed
  have held : e.content.name? name = some c := by
    rw [dir, FsContent.name?_dir]
    exact Std.ExtTreeMap.mem_toList_iff_getElem?_eq_some.mp listed
  obtain ⟨_, e', there, one, _⟩ := wf.child_entry here held
  refine ⟨e', there, ?_⟩
  rw [one]
  decide

/-- The `..` and the `.` behind the files. -/
def listTail (fs : Fs) (dir : InodeLookup) (fileCount next : Nat) (r : Readdir) :
    Except Crash (Except IoError Unit × Readdir × Fs) := do
  let (result, next, r, fs) ← listParent dir fileCount next fs r
  if result ≠ .ok .more then return (ListState.finish result, r, fs)
  let (result, r) ← listSelf dir fileCount next fs r
  return (ListState.finish result, r, fs)

theorem listSelf_eq (here : fs.entryAt i = some e) (fileCount next : Nat) (r : Readdir) :
    listSelf i fileCount next fs r =
      addEntries next r (if next = fileCount + 1 then [(dot, e.stat)] else []) >>= fun out =>
        .ok (out.1, out.2.2) := by
  unfold listSelf
  split
  · next last =>
      simp only [deref_ok here, Except.ok_bind, addEntries, bind_assoc]
      congr 1
      funext result
      split
      · next more =>
          rw [more]
          rfl
      · rfl
  · rfl

theorem listTail_after (wf : Wf fs []) (here : fs.entryAt i = some e) {fileCount next : Nat}
    (past : fileCount < next) (r : Readdir) :
    Listing fs e ([(dotdot, fs.statOf e.parent), (dot, e.stat)].drop (next - fileCount)) next r
      (listTail fs i fileCount next r) := by
  have skipped : listParent i fileCount next fs r = .ok (.ok .more, next, r, fs) :=
    if_neg (Nat.ne_of_gt past)
  have left : [(dotdot, fs.statOf e.parent), (dot, e.stat)].drop (next - fileCount) =
      if next = fileCount + 1 then [(dot, e.stat)] else [] := by
    split
    · next last => simp [last]
    · next beyond =>
        exact List.drop_eq_nil_of_le (by simp only [List.length_cons, List.length_nil]; omega)
  simp only [listTail, skipped, Except.ok_bind, listSelf_eq here, left, bind_assoc]
  generalize added : addEntries next r (if next = fileCount + 1 then [(dot, e.stat)] else []) = out
  cases out with
  | error crash => exact .crashed crash added
  | ok out => exact .done out.1 out.2.1 out.2.2 fs added wf (.refl fs)

theorem listTail_both (wf : Wf fs []) (here : fs.entryAt i = some e) (fileCount : Nat)
    (r : Readdir) :
    Listing fs e [(dotdot, fs.statOf e.parent), (dot, e.stat)] fileCount r
      (listTail fs i fileCount fileCount r) := by
  simp only [listTail, listParent, if_true, deref_ok here, Except.ok_bind]
  cases up : fs.entryAt e.parent with
  | none =>
      obtain ⟨error, gone⟩ := listInode_gone up r dotdot (fileCount + 1)
      simp only [gone, Except.ok_bind]
      exact .orphan error [] fileCount r rfl up
  | some u =>
      obtain ⟨fs', wf', swept, lists⟩ := listInode_live wf up
      have shape : addEntries fileCount r [(dotdot, fs.statOf e.parent), (dot, e.stat)] =
          listed (Readdir.addEntry r dotdot (fs.statOf e.parent)
            (UInt64.ofNat (fileCount + 1))).1 >>= fun result =>
            if result = .ok .more then
              addEntries (fileCount + 1)
                (Readdir.addEntry r dotdot (fs.statOf e.parent) (UInt64.ofNat (fileCount + 1))).2
                  [(dot, e.stat)]
            else .ok (result, fileCount + 1,
              (Readdir.addEntry r dotdot (fs.statOf e.parent) (UInt64.ofNat (fileCount + 1))).2) :=
                rfl
      simp only [lists, bind_assoc, Except.ok_bind, pure_bind]
      generalize listed (Readdir.addEntry r dotdot (fs.statOf e.parent)
        (UInt64.ofNat (fileCount + 1))).1 = first at shape
      generalize (Readdir.addEntry r dotdot (fs.statOf e.parent) (UInt64.ofNat (fileCount + 1))).2 =
        r₁ at shape
      cases first with
      | error crash => exact .crashed crash shape
      | ok result =>
          by_cases more : result = .ok .more
          · subst more
            simp only [Except.ok_bind, if_true] at shape
            simp only [Except.ok_bind, ne_eq, not_true_eq_false, if_false]
            have fades := swept.fades i e here
            cases after : fs'.entryAt i with
            | none =>
                rw [after] at fades
                cases fades with
                | gone uncounted =>
                    have stuck : listSelf i fileCount (fileCount + 1) fs' r₁ =
                        .error .dangling := by
                      simp only [listSelf, if_true, deref, after]
                      rfl
                    rw [stuck]
                    exact .dangling uncounted
            | some e' =>
                rw [after] at fades
                have stat : e'.stat = e.stat := by rw [fades.kept]
                simp only [listSelf_eq after, if_true, stat, bind_assoc]
                generalize addEntries (fileCount + 1) r₁ [(dot, e.stat)] = out at shape
                cases out with
                | error crash => exact .crashed crash shape
                | ok out => exact .done out.1 out.2.1 out.2.2 fs' shape wf' swept
          · simp only [Except.ok_bind, more, if_false] at shape
            simp only [Except.ok_bind, ne_eq, more, not_false_eq_true, if_true]
            exact .done result (fileCount + 1) r₁ fs' shape wf' swept

theorem listTail_spec (wf : Wf fs []) (here : fs.entryAt i = some e) {fileCount next : Nat}
    (reach : fileCount ≤ next) (r : Readdir) :
    Listing fs e ([(dotdot, fs.statOf e.parent), (dot, e.stat)].drop (next - fileCount)) next r
      (listTail fs i fileCount next r) := by
  rcases Nat.eq_or_lt_of_le reach with rfl | past
  · rw [Nat.sub_self]
    exact listTail_both wf here fileCount r
  · exact listTail_after wf here past r

/-- A listing of what follows entries that were all added. -/
theorem Listing.after {front back : List (OsStr × Stat)} {offset next : Nat}
    {out : Except Crash (Except IoError Unit × Readdir × Fs)}
    (added : addEntries offset r front = .ok (.ok .more, next, r'))
    (listing : Listing fs e back next r' out) :
    Listing fs e (front ++ back) offset r out := by
  have whole : addEntries offset r (front ++ back) = addEntries next r' back := by
    rw [addEntries_append, added]
    rfl
  cases listing with
  | done result stop r₂ fs' more wf swept =>
      exact .done result stop r₂ fs' (whole.trans more) wf swept
  | orphan error middle stop r₂ more gone =>
      refine .orphan error (front ++ middle) stop r₂ ?_ gone
      rw [addEntries_append, added]
      exact more
  | crashed crash crashes => exact .crashed crash (whole.trans crashes)
  | dangling wild => exact .dangling wild

theorem listDir_spec (wf : Wf fs []) (here : fs.entryAt i = some e) (dir : e.content = .dir files)
    (r : Readdir) :
    Listing fs e ((fs.listing e files).drop r.offset.toNat) r.offset.toNat r
      (listDir fs i files r) := by
  have linked : ∀ file ∈ files.toList.drop r.offset.toNat, ∃ e',
      fs.entryAt file.2 = some e' ∧ e'.links ≠ 0 :=
    fun file member => wf.files_linked here dir file (List.mem_of_mem_drop member)
  rw [listing_drop]
  simp only [listDir, listFiles_eq wf linked, bind_assoc, Except.ok_bind]
  generalize added : addEntries r.offset.toNat r (fs.fileStats (files.toList.drop r.offset.toNat)) =
    out
  cases out with
  | error crash =>
      refine .crashed crash ?_
      rw [addEntries_append, added]
      rfl
  | ok out =>
      obtain ⟨result, next, r'⟩ := out
      simp only [Except.ok_bind]
      by_cases more : result = .ok .more
      · subst more
        simp only [ne_eq, not_true_eq_false, if_false]
        have length : next = r.offset.toNat + (files.size - r.offset.toNat) := by
          rw [addEntries_more added, fileStats, List.length_map, List.length_drop,
            Std.ExtTreeMap.length_toList]
        have same : next - files.size = r.offset.toNat - files.size := by omega
        have tail := listTail_spec wf here (show files.size ≤ next by omega) r'
        rw [same] at tail
        exact tail.after added
      · simp only [ne_eq, more, not_false_eq_true, if_true]
        refine .done result next r' fs ?_ wf (.refl fs)
        rw [addEntries_append, added]
        exact if_neg more

theorem statOf_guarded (here : fs.entryAt i = some e) (j : Nat) :
    (fs.update i addLookup).statOf j = fs.statOf j := by
  rw [statOf, statOf, entryAt_update]
  split
  · next same =>
      subst same
      rw [here]
      rfl
  · rfl

theorem listing_guarded (here : fs.entryAt i = some e) (files : Files) :
    (fs.update i addLookup).listing (addLookup e) files = fs.listing e files := by
  simp only [listing, fileStats, statOf_guarded here]
  rfl

theorem Modest.survives (modest : fs.Modest) (here : fs.entryAt i = some e)
    (swept : Swept (fs.update i addLookup) fs') :
    ∃ e', fs'.entryAt i = some e' ∧ Fades (addLookup e) (some e') :=
  swept.lives (entryAt_update_self here addLookup) (counted_twice (modest i e here))

/-- What a READDIR comes to. -/
inductive ReadsDir (fs : Fs) (r : Readdir) :
    Except Crash (Except IoError Unit × Readdir × Fs) → Prop where
  | listed (e : FsEntry) (files : Files) (result : Except IoError ListState) (stop : Nat)
      (r' : Readdir) (fs' : Fs) (here : fs.entryAt r.inode.toNat = some e)
      (dir : e.content = .dir files)
      (added : addEntries r.offset.toNat r ((fs.listing e files).drop r.offset.toNat) =
        .ok (result, stop, r')) (wf :
        Wf fs' []) (swept : Swept fs fs') : ReadsDir fs r (.ok (ListState.finish result, r', fs'))
  | orphan (e : FsEntry) (error : IoError) (front : List (OsStr × Stat)) (stop : Nat) (r' : Readdir)
      (fs' : Fs) (here : fs.entryAt r.inode.toNat = some e) (gone : fs.entryAt e.parent = none)
      (added : addEntries r.offset.toNat r front = .ok (.ok .more, stop, r'))
      (wf : Wf fs' []) (swept : Swept fs fs') : ReadsDir fs r (.ok (.error error, r', fs'))
  | refused (error : IoError) (fs' : Fs)
      (none : ∀ e, fs.entryAt r.inode.toNat = some e → e.content.isDir = false) (wf : Wf fs' [])
      (swept : Swept fs fs') : ReadsDir fs r (.ok (.error error, r, fs'))
  | crashed (e : FsEntry) (files : Files) (crash : Crash) (here : fs.entryAt r.inode.toNat = some e)
      (dir : e.content = .dir files)
      (crashes : addEntries r.offset.toNat r ((fs.listing e files).drop r.offset.toNat) =
        .error crash) :
      ReadsDir fs r (.error crash)
  | dangling (wild : ¬ fs.Modest) : ReadsDir fs r (.error .dangling)

theorem dropLookup_gone (gone : fs.entryAt i = none) : fs.dropLookup i = .error .dangling := by
  simp only [dropLookup, forgetEntry, Option.getD_none, forgetEntryIn, deref, gone]
  rfl

/-- The guard of the directory at the end of a listing. -/
theorem listed_drops (here : fs.entryAt i = some e) {mid : Fs} (wf : Wf mid [])
    (swept : Swept (fs.update i addLookup) mid) :
    (∃ fs', mid.dropLookup i = .ok fs' ∧ Wf fs' [] ∧ Swept fs fs') ∨
      mid.dropLookup i = .error .dangling ∧ ¬ fs.Modest := by
  cases there : mid.entryAt i with
  | some e' => exact .inl (swept.dropGuard wf here there)
  | none =>
      refine .inr ⟨dropLookup_gone there, ?_⟩
      intro modest
      obtain ⟨e', after, _⟩ := modest.survives here swept
      rw [there] at after
      cases after

theorem Listing.closes {out : Except Crash (Except IoError Unit × Readdir × Fs)}
    (here : fs.entryAt r.inode.toNat = some e) (dir : e.content = .dir files)
    (wf : Wf (fs.update r.inode.toNat addLookup) [])
    (listing : Listing (fs.update r.inode.toNat addLookup) (addLookup e)
      ((fs.listing e files).drop r.offset.toNat) r.offset.toNat r out) :
    ReadsDir fs r (out >>= fun x => x.2.2.dropLookup r.inode.toNat >>= fun fs' =>
      .ok (x.1, x.2.1, fs')) := by
  cases listing with
  | done result stop r' mid added wfMid swept =>
      rcases listed_drops here wfMid swept with ⟨fs', dropped, wf', swept'⟩ | ⟨dangling, wild⟩
      · simp only [Except.ok_bind, dropped]
        exact .listed e files result stop r' fs' here dir added wf' swept'
      · simp only [Except.ok_bind, dangling]
        exact .dangling wild
  | orphan error front stop r' added gone =>
      have parent : fs.entryAt e.parent = none := by
        cases before : fs.entryAt e.parent with
        | none => rfl
        | some u =>
            rw [addLookup, entryAt_update, before] at gone
            split at gone
            · cases gone
            · cases gone
      rcases listed_drops here wf (.refl _) with ⟨fs', dropped, wf', swept'⟩ | ⟨dangling, wild⟩
      · simp only [Except.ok_bind, dropped]
        exact .orphan e error front stop r' fs' here parent added wf' swept'
      · simp only [Except.ok_bind, dangling]
        exact .dangling wild
  | crashed crash crashes => exact .crashed e files crash here dir crashes
  | dangling wild =>
      refine .dangling fun modest => wild ?_
      exact counted_twice (modest _ e here)

theorem handleReaddir_spec (wf : Wf fs []) (r : Readdir) : ReadsDir fs r (handleReaddir fs r) := by
  cases here : fs.entryAt r.inode.toNat with
  | none =>
      obtain ⟨error, looked⟩ := lookup_none here
      simp only [handleReaddir, looked]
      refine .refused error fs ?_ wf (.refl fs)
      intro e there
      rw [here] at there
      cases there
  | some e =>
      have here₁ := entryAt_update_self here addLookup
      have wf₁ := wf.update here (alike_addLookup e)
      simp only [handleReaddir, lookup_ok here, deref_ok here₁, Except.ok_bind]
      cases dir : e.content with
      | file data =>
          obtain ⟨fs', dropped, wf', swept⟩ := wf.dropGuard here
          simp only [addLookup, dir]
          rw [show Fs.dropLookup _ _ = _ from dropped]
          refine .refused _ fs' ?_ wf' swept
          intro e' there
          rw [here] at there
          cases there
          rw [dir]
          rfl
      | dir files =>
          have listing := listDir_spec wf₁ here₁ dir r
          rw [listing_guarded here] at listing
          have closed := listing.closes here dir wf₁
          simp only [addLookup, dir]
          exact closed

end Fs
end ProxmoxFuse
