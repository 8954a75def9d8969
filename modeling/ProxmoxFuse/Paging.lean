import Mathlib.Data.UInt
import ProxmoxFuse.FsRuns
import ProxmoxFuse.Listing

/-!
# Reading a directory page by page

A reply holds what fits of a directory, and the kernel continues behind the last
entry it was given. Offsets count entries, so this lists a directory that keeps its
names completely, in order and without repetition, whatever else the server does
meanwhile. A name that is removed moves the others up, and the next one is missed.
-/
namespace ProxmoxFuse
open Fs

/-! ### One page -/

/-- The entries of a listing, each with the offset that follows it. -/
def numbered (offset : Nat) : List (OsStr × Stat) → List ReaddirEntry
  | [] => []
  | (name, stat) :: rest => ⟨name, stat, UInt64.ofNat (offset + 1)⟩ :: numbered (offset + 1) rest

theorem numbered_length (offset : Nat) (l : List (OsStr × Stat)) :
    (numbered offset l).length = l.length := by
  induction l generalizing offset with
  | nil => rfl
  | cons x rest ih => exact congrArg (· + 1) (ih (offset + 1))

/-- Where the kernel continues after a page. -/
def nextOffset (offset : UInt64) (page : List KernelDirent) : UInt64 :=
  (page.getLast?.map (·.off)).getD offset

theorem numbered_last (offset : Nat) (l : List (OsStr × Stat)) :
    (((numbered offset l).map ReaddirEntry.kernel).getLast?.map (·.off)).getD
      (UInt64.ofNat offset) =
      UInt64.ofNat (offset + l.length) := by
  induction l generalizing offset with
  | nil => rfl
  | cons x rest ih =>
      rw [List.length_cons, Nat.add_comm rest.length 1, ← Nat.add_assoc, ← ih (offset + 1)]
      simp only [numbered, List.map_cons, List.getLast?_cons, Option.map_some, Option.getD_some]
      cases ((numbered (offset + 1) rest).map ReaddirEntry.kernel).getLast? with
      | none => rfl
      | some d => rfl

theorem nextOffset_numbered (offset : UInt64) (l : List (OsStr × Stat)) :
    nextOffset offset ((numbered offset.toNat l).map ReaddirEntry.kernel) =
      UInt64.ofNat (offset.toNat + l.length) := by
  rw [← numbered_last, UInt64.ofNat_toNat]
  rfl

/-- Why no more was added to a buffer that is filled so far. -/
inductive Stops (size filled : Nat) : List (OsStr × Stat) → Except IoError ListState → Prop where
  | all : Stops size filled [] (.ok .more)
  | full (x : OsStr × Stat) (rest : List (OsStr × Stat))
      (short : size < filled + direntLayout.extent x.1.length) :
      Stops size filled (x :: rest) (.ok .full)
  | invalid (x : OsStr × Stat) (rest : List (OsStr × Stat)) (error : IoError) (nul : 0 ∈ x.1) :
      Stops size filled (x :: rest) (.error error)

/-- What was added is a front of the entries, up to one that did not fit or has a NUL in its name.
-/
theorem addEntries_front {guard : RequestGuard} {size offset stop : Nat} {r r' : Readdir}
    {l : List (OsStr × Stat)} {result : Except IoError ListState} (filling : Filling guard size r)
    (added : addEntries offset r l = .ok (result, stop, r')) :
    ∃ front back, l = front ++ back ∧ r' = readdirLister.after r (numbered offset front) ∧
      readdirLister.accepted r (numbered offset front) = numbered offset front ∧
        Stops size r'.data.length back result := by
  induction l generalizing offset r with
  | nil =>
      cases added
      exact ⟨[], [], rfl, rfl, rfl, .all⟩
  | cons x rest ih =>
      obtain ⟨buf, buffer, length⟩ := filling.buffer
      have next := filling.add readdirLister ⟨x.1, x.2, UInt64.ofNat (offset + 1)⟩
      have view := ReaddirEntry.added r buf buffer ⟨x.1, x.2, UInt64.ofNat (offset + 1)⟩
      have adds : readdirLister.add r ⟨x.1, x.2, UInt64.ofNat (offset + 1)⟩ =
        Readdir.addEntry r x.1 x.2 (UInt64.ofNat (offset + 1)) := rfl
      simp only [addEntries] at added
      rw [adds] at next
      generalize Readdir.addEntry r x.1 x.2 (UInt64.ofNat (offset + 1)) =
        out at view added next adds
      cases view with
      | invalid e nul =>
          cases added
          exact ⟨[], x :: rest, rfl, rfl, rfl, .invalid x rest e nul⟩
      | full valid short =>
          cases added
          rw [← ReaddirCommon.data_eq buffer, length] at short
          exact ⟨[], x :: rest, rfl, rfl, rfl, .full x rest short⟩
      | ok valid room buf' size' data =>
          simp only [listed, Except.ok_bind, if_true] at added
          obtain ⟨front, back, split, after, accepted, stops⟩ := ih next added
          refine ⟨x :: front, back, congrArg (x :: ·) split, ?_, ?_, stops⟩
          · simp only [after, Lister.after, numbered, List.foldl_cons, adds]
          · simp only [Lister.accepted, numbered, adds, accepted]

/-- The names a directory reads as, with their inodes. -/
def dirEntries (files : Files) (parent : Nat) (i : UInt64) : List (OsStr × UInt64) :=
  files.toList.map (fun file => (file.1, UInt64.ofNat file.2)) ++
    [(dotdot, UInt64.ofNat parent), (dot, i)]

theorem dirEntries_length (files : Files) (parent : Nat) (i : UInt64) :
    (dirEntries files parent i).length = files.size + 2 := by
  rw [dirEntries, List.length_append, List.length_map, Std.ExtTreeMap.length_toList]
  rfl

/-- A directory whose parent is there. -/
structure Fs.DirAt (fs : Fs) (i : UInt64) (files : Files) (parent : Nat) : Prop where
  here : ∃ e, fs.entryAt i.toNat = some e ∧ e.content = .dir files ∧ e.parent = parent
  up : ∃ u, fs.entryAt parent = some u

def KernelDirent.named (d : KernelDirent) : OsStr × UInt64 := (d.name, d.ino)

theorem numbered_named (offset : Nat) (l : List (OsStr × Stat)) :
    ((numbered offset l).map ReaddirEntry.kernel).map KernelDirent.named =
      l.map fun x => (x.1, x.2.stIno) := by
  induction l generalizing offset with
  | nil => rfl
  | cons x rest ih => exact congrArg ((x.1, x.2.stIno) :: ·) (ih (offset + 1))

/-- One READDIR and what the kernel makes of a successful answer to it. -/
inductive Page (fs : Fs) (i : UInt64) (size : UInt32) (offset : UInt64) (fs' : Fs) :
    List KernelDirent → Prop where
  | page (guard : RequestGuard) (r' : Readdir) (host : Host) (made : List Attempt) (a : Attempt)
      (handled : handleReaddir fs (ReaddirCommon.new guard i size.toNat offset) =
        .ok (.ok (), r', fs'))
      (log : (ReaddirCommon.reply r' host).2.log = host.log ++ made) (sent : a ∈ made)
      (success : a.error = 0) :
      Page fs i size offset fs' (readdirLister.kernelParse a.payload).1

/-- A READDIR that comes back with a successful answer. -/
def Fs.Answers (fs : Fs) (r : Readdir) (host : Host) : Prop :=
  ∃ r' fs' made, handleReaddir fs r = .ok (.ok (), r', fs') ∧
    (ReaddirCommon.reply r' host).2.log = host.log ++ made ∧ ∃ a ∈ made, a.error = 0

section pages
variable {fs fs' : Fs} {i offset : UInt64} {size : UInt32} {files : Files} {parent : Nat}
  {page : List KernelDirent}

theorem statOf_ino (wf : Wf fs []) {j : Nat} {e : FsEntry} (here : fs.entryAt j = some e) :
    (fs.statOf j).stIno = UInt64.ofNat j := by
  rw [statOf_entry here]
  exact (wf.numbered j e here).2.2

theorem listing_named (wf : Wf fs []) {e : FsEntry} (here : fs.entryAt i.toNat = some e)
    (dir : e.content = .dir files) (up : ∃ u, fs.entryAt e.parent = some u) :
    ((fs.listing e files).map fun x => (x.1, x.2.stIno)) = dirEntries files e.parent i := by
  obtain ⟨u, there⟩ := up
  have self : e.stat.stIno = i := (wf.numbered _ e here).2.2.trans UInt64.ofNat_toNat
  simp only [Fs.listing, Fs.fileStats, dirEntries, List.map_append, List.map_map, List.map_cons,
    List.map_nil, self, statOf_ino wf there]
  refine congrArg (· ++ _) (List.map_congr_left ?_)
  intro file member
  obtain ⟨c, child, _⟩ := wf.files_linked here dir file member
  exact congrArg (Prod.mk file.1) (statOf_ino wf child)

/-- A listing that succeeds added entries until one did not fit. -/
theorem handleReaddir_added {r r' : Readdir} {e : FsEntry} (wf : Wf fs [])
    (here : fs.entryAt r.inode.toNat = some e) (dir : e.content = .dir files)
    (handled : handleReaddir fs r = .ok (.ok (), r', fs')) :
    Wf fs' [] ∧ ∃ state stop,
      addEntries r.offset.toNat r ((fs.listing e files).drop r.offset.toNat) =
        .ok (.ok state, stop, r') := by
  have view := handleReaddir_spec wf r
  rw [handled] at view
  generalize outcome : (Except.ok () : Except IoError Unit) = finished at view
  cases view with
  | listed e' files' result stop _ _ here' dir' added wf' swept =>
      cases here.symm.trans here'
      cases dir.symm.trans dir'
      cases result with
      | error error => cases outcome
      | ok state => exact ⟨wf', state, stop, added⟩
  | orphan _ error => cases outcome
  | refused error => cases outcome

/-- A page is a front of what follows its offset, and it is empty only for want of room. -/
theorem Page.front (shown : Page fs i size offset fs' page) (wf : Wf fs [])
    (dirAt : fs.DirAt i files parent) :
    Wf fs' [] ∧ nextOffset offset page = UInt64.ofNat (offset.toNat + page.length) ∧
      ∃ back, (dirEntries files parent i).drop offset.toNat = page.map KernelDirent.named ++ back ∧
        ∀ x ∈ back.head?, page = [] → size.toNat < direntLayout.extent x.1.length := by
  obtain ⟨⟨e, here, dir, rfl⟩, up⟩ := dirAt
  cases shown with
  | page guard r' host made a handled log sent success =>
      have start := new_filling guard i size.toNat offset
      have asked : (ReaddirCommon.new guard i size.toNat offset).offset = offset := rfl
      obtain ⟨wf', state, stop, added⟩ := handleReaddir_added wf here dir handled
      rw [asked] at added
      obtain ⟨front, back, split, after, accepted, stops⟩ := addEntries_front start added
      have listed :=
        start.listed readdirLister rfl (Nat.le_of_lt size.toNat_lt) (numbered offset.toNat front)
      -- what was sent is the data of the buffer, which holds the front
      have data : (readdirLister.kernelParse a.payload).1 =
          (numbered offset.toNat front).map ReaddirEntry.kernel := by
        obtain ⟨made', log', successes, _⟩ := listed.sent host
        have decoded := listed.decoded
        rw [← after] at log' successes decoded
        obtain rfl := List.append_cancel_left (log.symm.trans log')
        rw [(successes a sent success).2, decoded]
        exact congrArg _ accepted
      rw [data]
      refine ⟨wf', ?_, back.map fun x => (x.1, x.2.stIno), ?_, ?_⟩
      · rw [nextOffset_numbered, List.length_map, numbered_length]
      · rw [← listing_named wf here dir up, ← List.map_drop, numbered_named, ← List.map_append]
        exact congrArg _ split
      · intro x head none
        have unfilled : r'.data.length = 0 := by
          rw [after, List.map_eq_nil_iff.mp none]
          rfl
        rw [unfilled] at stops
        cases stops with
        | all => cases head
        | full y rest short =>
            cases head
            rwa [Nat.zero_add] at short

/-- Every READDIR of a directory is answered. -/
theorem Fs.DirAt.answers (dirAt : fs.DirAt i files parent) (wf : Wf fs []) (modest : fs.Modest)
    (valid : ∀ x ∈ dirEntries files parent i, 0 ∉ x.1) (writable : 16 + size.toNat < 2 ^ 32)
    (offset : UInt64) (guard : RequestGuard) (host : Host) :
    fs.Answers (ReaddirCommon.new guard i size.toNat offset) host := by
  obtain ⟨⟨e, here, dir, rfl⟩, up⟩ := dirAt
  have start := new_filling guard i size.toNat offset
  have view := handleReaddir_spec wf (ReaddirCommon.new guard i size.toNat offset)
  generalize handled : handleReaddir fs (ReaddirCommon.new guard i size.toNat offset) = out at view
  cases view with
  | listed e' files' result stop r' fs' here' dir' added wf' swept =>
      cases here.symm.trans here'
      cases dir.symm.trans dir'
      obtain ⟨front, back, split, after, _, stops⟩ := addEntries_front start added
      have listed :=
        start.listed readdirLister rfl (Nat.le_of_lt size.toNat_lt) (numbered offset.toNat front)
      have bounded := listed.bounded
      obtain ⟨made, log, _, answered⟩ := listed.sent host
      have answered := answered (by omega)
      rw [← show r' = readdirLister.after _ (numbered offset.toNat front) from after] at log
      have finished : ListState.finish result = .ok () := by
        cases stops with
        | all => rfl
        | full x rest short => rfl
        | invalid x rest error nul =>
            refine absurd nul (valid (x.1, x.2.stIno) ?_)
            rw [← listing_named wf here dir up]
            refine List.mem_map_of_mem (List.mem_of_mem_drop (i := offset.toNat) ?_)
            rw [show (fs.listing e files).drop offset.toNat = _ from split]
            exact List.mem_append_right _ List.mem_cons_self
      rw [finished] at handled
      exact ⟨r', fs', made, handled, log, answered⟩
  | orphan e' error front stop r' fs' here' gone added wf' swept =>
      cases here.symm.trans here'
      obtain ⟨u, there⟩ := up
      cases gone.symm.trans there
  | refused error fs' none wf' swept =>
      have file := none e here
      rw [dir] at file
      cases file
  | crashed e' files' crash here' dir' crashes => cases (addEntries_panics crashes).2
  | dangling wild => exact absurd modest wild

end pages

/-! ### Whole directories -/

section reading
variable {τ : Type} [Timeout τ] {now : Duration} {start fs mid fs' : Fs}
  {i origin offset offset' : UInt64} {size : UInt32} {files : Files} {parent : Nat}
  {seen page later : List KernelDirent} {vs : List (Visit τ)}

/-- A directory that is read from an offset on while the server goes on: each page continues where
the one before it ended, and at every page the directory has the same names. -/
inductive Paging (τ : Type) [Timeout τ] (i : UInt64) (files : Files) (parent : Nat) (start : Fs)
    (origin : UInt64) :
    Fs → UInt64 → List KernelDirent → Prop where
  | opened : Paging τ i files parent start origin start origin []
  | turned {fs mid fs' : Fs} {offset : UInt64} {size : UInt32} {seen page : List KernelDirent}
      {vs : List (Visit τ)} (before : Paging τ i files parent start origin fs offset seen)
      (served : fs.serve vs = .ok mid) (dirAt : mid.DirAt i files parent)
      (shown : Page mid i size offset fs' page) :
      Paging τ i files parent start origin fs' (nextOffset offset page) (seen ++ page)

theorem Paging.wf (paging : Paging τ i files parent start origin fs offset seen)
    (wf : Wf start []) : Wf fs [] := by
  induction paging with
  | opened => exact wf
  | turned before served dirAt shown ih => exact (shown.front (serve_wf ih served) dirAt).1

/-- What was seen is a front of what follows the origin, and the offset has moved by its length. -/
theorem Paging.front (paging : Paging τ i files parent start origin fs offset seen)
    (wf : Wf start []) (small : files.size + 2 < 2 ^ 64) :
    offset.toNat = origin.toNat + seen.length ∧
      seen.map KernelDirent.named <+: (dirEntries files parent i).drop origin.toNat := by
  induction paging with
  | opened => exact ⟨rfl, List.nil_prefix⟩
  | @turned fs mid fs' offset size seen page vs before served dirAt shown ih =>
      obtain ⟨reached, rest, whole⟩ := ih
      obtain ⟨_, next, back, follows, _⟩ := shown.front (serve_wf (before.wf wf) served) dirAt
      have longer : seen.map KernelDirent.named ++ (page.map KernelDirent.named ++ back) =
          (dirEntries files parent i).drop origin.toNat := by
        rw [← follows, reached, ← List.drop_drop, ← whole, List.drop_left' (List.length_map _)]
      have length := congrArg List.length longer
      rw [List.length_drop, dirEntries_length] at length
      simp only [List.length_append, List.length_map] at length
      have word : offset.toNat + page.length < UInt64.size := by
        have bound := offset.toNat_lt
        rw [UInt64.size]
        omega
      refine ⟨?_, back, ?_⟩
      · rw [next, UInt64.toNat_ofNat_of_lt' word, reached, List.length_append, Nat.add_assoc]
      · rw [List.map_append, List.append_assoc, longer]

/-- A directory that keeps its names while it is read, in pages of any sizes and with anything else
done in between, is listed from the front without a gap or a repetition, each name with its inode.
Every READDIR of it is answered, and once a page is empty that had room for every name, all of it
has been seen. -/
theorem pages_list_a_directory (started : (Fs.new now).serve vs = .ok start)
    (paging : Paging τ i files parent start 0 fs offset seen) (small : files.size + 2 < 2 ^ 64) :
    offset.toNat = seen.length ∧ seen.map KernelDirent.named <+: dirEntries files parent i ∧
      ∀ (vs : List (Visit τ)) mid size, fs.serve vs = .ok mid → mid.DirAt i files parent →
        (mid.Modest → (∀ x ∈ dirEntries files parent i, 0 ∉ x.1) → 16 + size.toNat < 2 ^ 32 →
          ∀ guard host, mid.Answers (ReaddirCommon.new guard i size.toNat offset) host) ∧
        ∀ fs', Page mid i size offset fs' [] →
          (∀ x ∈ dirEntries files parent i, direntLayout.extent x.1.length ≤ size.toNat) →
          seen.map KernelDirent.named = dirEntries files parent i := by
  have wf := serve_wf (new_wf now) started
  obtain ⟨reached, rest, whole⟩ := paging.front wf small
  rw [UInt64.toNat_zero, Nat.zero_add] at reached
  rw [UInt64.toNat_zero, List.drop_zero] at whole
  refine ⟨reached, ⟨rest, whole⟩, ?_⟩
  intro vs mid size served dirAt
  have wfMid := serve_wf (paging.wf wf) served
  refine ⟨fun modest valid writable => dirAt.answers wfMid modest valid writable offset, ?_⟩
  intro fs' shown room
  obtain ⟨_, _, back, follows, full⟩ := shown.front wfMid dirAt
  rw [← whole, reached, List.drop_left' (List.length_map _), List.map_nil,
    List.nil_append] at follows
  subst follows
  cases rest with
  | nil => rw [← whole, List.append_nil]
  | cons x rest =>
      have short := full x rfl rfl
      have fits := room x (by rw [← whole]; exact List.mem_append_right _ List.mem_cons_self)
      omega

def twoDirs : List (Visit (UInt64 × UInt32)) :=
  [quietly (.mkdir ⟨⟨7⟩, 1, [97], 0⟩), quietly (.mkdir ⟨⟨8⟩, 1, [98], 0⟩)]

def rootWithTwo : Fs := ((Fs.new midnight).serve twoDirs).toOption.getD (Fs.new midnight)

def twoNames : Files := ((∅ : Files).insert [97] 2).insert [98] 3

theorem rootWithTwo_idle :
    rootWithTwo.serve ([] : List (Visit (UInt64 × UInt32))) = .ok rootWithTwo := rfl

theorem rootWithTwo_dirAt : rootWithTwo.DirAt 1 twoNames 1 := ⟨⟨_, rfl, rfl, rfl⟩, ⟨_, rfl⟩⟩

set_option maxRecDepth 100000 in
theorem pages_list_a_directory_two :
    ∃ fs offset seen, Paging (UInt64 × UInt32) 1 twoNames 1 rootWithTwo 0 fs offset seen ∧
      seen.map KernelDirent.named = dirEntries twoNames 1 1 := by
  have started : (Fs.new midnight).serve twoDirs = .ok rootWithTwo := rfl
  have shown : Page rootWithTwo 1 128 0 rootWithTwo _ :=
    .page ⟨9⟩ _ ⟨fun _ => .ok, 4096, []⟩ _ _ rfl rfl List.mem_cons_self (by decide +kernel)
  have empty : Page rootWithTwo 1 128 4 rootWithTwo _ :=
    .page ⟨9⟩ _ ⟨fun _ => .ok, 4096, []⟩ _ _ rfl rfl List.mem_cons_self (by decide +kernel)
  have paging := Paging.turned .opened rootWithTwo_idle rootWithTwo_dirAt shown
  refine ⟨_, _, _, paging, ?_⟩
  exact ((pages_list_a_directory started paging (by decide)).2.2 [] rootWithTwo 128
    rfl rootWithTwo_dirAt).2 rootWithTwo
    empty (by decide +kernel)

/-! ### Removals -/

theorem toList_erase (files : Files) (name : OsStr) :
    (files.erase name).toList = files.toList.filter (·.1 ≠ name) := by
  have same : files.erase name = files.filter fun key _ => key ≠ name := by
    refine Std.ExtTreeMap.ext_getElem? ?_
    intro key
    rw [Std.ExtTreeMap.getElem?_erase, Std.ExtTreeMap.getElem?_filter']
    by_cases erased : key = name
    · subst erased
      simp
    · have other : compare name key ≠ .eq :=
        fun equal => erased (Std.LawfulEqCmp.eq_of_compare equal).symm
      rw [if_neg other]
      cases files[key]? with
      | none => rfl
      | some c => rw [Option.filter_some, if_pos (decide_eq_true erased)]
  rw [same, Std.ExtTreeMap.toList_filter]

/-- A removed name leaves the rest of the directory where it is, one place further up behind it. -/
theorem dirEntries_erase {name : OsStr} (held : name ∈ files) (parent : Nat) (i : UInt64) :
    ∃ front x back, dirEntries files parent i = front ++ x :: back ∧
      dirEntries (files.erase name) parent i = front ++ back ∧ ∀ y ∈ front, y.1 ≠ name := by
  obtain ⟨file, member, rfl⟩ : ∃ file ∈ files.toList, file.1 = name := by
    rw [← Std.ExtTreeMap.mem_keys, ← Std.ExtTreeMap.map_fst_toList_eq_keys] at held
    exact List.mem_map.mp held
  obtain ⟨front, back, split⟩ := List.append_of_mem member
  have distinct := files.distinct_keys_toList
  rw [split, List.pairwise_append] at distinct
  obtain ⟨_, behind, before⟩ := distinct
  have before' : ∀ y ∈ front, y.1 ≠ file.1 := by
    intro y member same
    refine before y member file List.mem_cons_self ?_
    rw [same]
    exact Std.ReflCmp.compare_self
  have behind' : ∀ y ∈ back, y.1 ≠ file.1 := by
    intro y member same
    refine (List.pairwise_cons.mp behind).1 y member ?_
    rw [same]
    exact Std.ReflCmp.compare_self
  have kept : (files.erase file.1).toList = front ++ back := by
    rw [toList_erase, split, List.filter_append, List.filter_cons_of_neg (by simp),
      List.filter_eq_self.mpr fun y member => by simpa using before' y member,
      List.filter_eq_self.mpr fun y member => by simpa using behind' y member]
  refine ⟨front.map fun file => (file.1, UInt64.ofNat file.2), (file.1, UInt64.ofNat file.2),
    back.map (fun file => (file.1, UInt64.ofNat file.2)) ++
      [(dotdot, UInt64.ofNat parent), (dot, i)], ?_, ?_, ?_⟩
  · rw [dirEntries, split, List.map_append, List.map_cons, List.append_assoc, List.cons_append]
  · rw [dirEntries, kept, List.map_append, List.append_assoc]
  · intro y member
    obtain ⟨z, there, rfl⟩ := List.mem_map.mp member
    exact before' z there

/-- When a name that was already listed is removed, the read misses the entry that was to come next,
which is still there: all that is listed of the directory is without it. -/
theorem removals_hide_the_next_name (started : (Fs.new now).serve vs = .ok start)
    (paging : Paging τ i files parent start 0 fs offset seen) (small : files.size + 2 < 2 ^ 64)
    {name : OsStr} (held : name ∈ files) (listed : name ∈ seen.map (·.name))
    (after : Paging τ i (files.erase name) parent fs offset fs' offset' later) :
    (seen ++ later).map KernelDirent.named <+: (dirEntries files parent i).eraseIdx seen.length ∧
      ∀ missed, (dirEntries files parent i)[seen.length]? = some missed →
        missed ∈ dirEntries (files.erase name) parent i := by
  have wf := serve_wf (new_wf now) started
  obtain ⟨reached, rest, whole⟩ := paging.front wf small
  rw [UInt64.toNat_zero, Nat.zero_add] at reached
  rw [UInt64.toNat_zero, List.drop_zero] at whole
  obtain ⟨front, x, back, before, erased, other⟩ := dirEntries_erase held parent i
  -- the removed name is among those that were seen
  have further : front.length < seen.length := by
    by_contra short
    have inside : seen.map KernelDirent.named <+: front :=
      List.prefix_of_prefix_length_le ⟨rest, whole⟩ ⟨x :: back, before.symm⟩
        (by rw [List.length_map]; omega)
    obtain ⟨d, member, rfl⟩ := List.mem_map.mp listed
    exact other d.named (inside.subset (List.mem_map_of_mem member)) rfl
  have smaller : (files.erase name).size + 2 < 2 ^ 64 := by
    rw [← dirEntries_length (files.erase name) parent i, erased, List.length_append]
    rw [← dirEntries_length files parent i, before, List.length_append, List.length_cons] at small
    omega
  have moved : (dirEntries (files.erase name) parent i).drop seen.length =
      (dirEntries files parent i).drop (seen.length + 1) := by
    obtain ⟨n, past⟩ := Nat.exists_eq_add_of_le (Nat.le_of_lt further)
    rw [erased, before, past, Nat.add_assoc, ← List.drop_drop, ← List.drop_drop, List.drop_left,
      List.drop_left, List.drop_succ_cons]
  obtain ⟨_, rest', whole'⟩ := after.front (paging.wf wf) smaller
  rw [reached, moved] at whole'
  constructor
  · refine ⟨rest', ?_⟩
    rw [List.eraseIdx_eq_take_drop_succ, ← whole', ← whole, List.take_left' (List.length_map _),
      List.map_append, List.append_assoc]
  · intro missed next
    obtain ⟨n, past⟩ := Nat.exists_eq_add_of_le (Nat.succ_le_of_lt further)
    have behind : seen.length - front.length = n + 1 := by omega
    rw [before, List.getElem?_append_right (Nat.le_of_lt further), behind,
      List.getElem?_cons_succ] at next
    rw [erased]
    exact List.mem_append_right _ (List.mem_of_getElem? next)

def rootWithOne : Fs :=
  (rootWithTwo.serve [quietly (.rmdir ⟨⟨10⟩, 1, [97]⟩)]).toOption.getD rootWithTwo

set_option maxRecDepth 100000 in
theorem removals_hide_the_next_name_two :
    ∃ fs fs' offset offset' seen later, Paging (UInt64 × UInt32) 1 twoNames 1 rootWithTwo 0 fs
      offset seen ∧
      Paging (UInt64 × UInt32) 1 (twoNames.erase [97]) 1 fs offset fs' offset' later ∧
      (seen ++ later).map (·.name) = [[97], dotdot, dot] ∧
      (seen ++ later).map KernelDirent.named <+: [([97], 2), (dotdot, 1), (dot, 1)] ∧
      ([98], 3) ∈ dirEntries (twoNames.erase [97]) 1 1 := by
  have started : (Fs.new midnight).serve twoDirs = .ok rootWithTwo := rfl
  have shown : Page rootWithTwo 1 32 0 rootWithTwo _ :=
    .page ⟨9⟩ _ ⟨fun _ => .ok, 4096, []⟩ _ _ rfl rfl List.mem_cons_self (by decide +kernel)
  have paging := Paging.turned .opened rootWithTwo_idle rootWithTwo_dirAt shown
  have removed : rootWithTwo.serve [quietly (.rmdir ⟨⟨10⟩, 1, [97]⟩)] = .ok rootWithOne := rfl
  have dirAt : rootWithOne.DirAt 1 (twoNames.erase [97]) 1 := ⟨⟨_, rfl, rfl, rfl⟩, ⟨_, rfl⟩⟩
  have shown' : Page rootWithOne 1 96 1 rootWithOne _ :=
    .page ⟨9⟩ _ ⟨fun _ => .ok, 4096, []⟩ _ _ rfl rfl List.mem_cons_self (by decide +kernel)
  have after := Paging.turned .opened removed dirAt shown'
  obtain ⟨listing, missing⟩ :=
    removals_hide_the_next_name started paging (by decide) (by decide +kernel)
      (by decide +kernel) after
  exact ⟨_, _, _, _, _, _, paging, after, by decide +kernel, listing, missing _ (by decide +kernel)⟩

end reading
end ProxmoxFuse
