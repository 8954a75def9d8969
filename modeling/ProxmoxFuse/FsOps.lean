import ProxmoxFuse.Guards

/-!
# The operations

What each operation of the file system does, guards included: the one change it is
made for, or none, and then entries that nobody counts are collected. No operation
that starts from a sound tree follows a dangling guard.
-/
namespace ProxmoxFuse.Fs
open LinkTree (Sound)

variable {fs fs' : Fs} {loose : List Nat} {i j p : Nat} {e e' : FsEntry} {name : OsStr}

theorem leaving_ok {α : Type} {r : Except IoError α × Fs} (dropped : r.2.dropLookup i = .ok fs') :
    leaving i r = .ok (r.1, fs') := by
  simp only [leaving, dropped, Except.ok_bind]
  rfl

/-- Leaving with nothing done. -/
theorem Wf.leaving {α : Type} (wf : Wf fs loose) (here : fs.entryAt i = some e)
    (result : Except IoError α) :
    ∃ fs', Fs.leaving i (result, fs.update i addLookup) = .ok (result, fs') ∧ Wf fs' loose ∧
      Swept fs fs' := by
  obtain ⟨fs', dropped, wf', swept⟩ := wf.dropGuard here
  exact ⟨fs', leaving_ok dropped, wf', swept⟩

theorem guards_comm (fs : Fs) (i j : Nat) :
    (fs.update i addLookup).update j addLookup = (fs.update j addLookup).update i addLookup := by
  by_cases same : i = j
  · rw [same]
  · exact update_comm fs same addLookup addLookup

/-! ### Looking up -/

/-- What a name leads to from an entry. -/
def follow (e : FsEntry) (name : OsStr) : Option Nat :=
  if name = dot then some e.inode
  else if e.content.isDir then if name = dotdot then some e.parent else e.content.name? name
  else none

def live (fs : Fs) (i : Nat) : Bool := (fs.entryAt i).isSome

/-- The inode a name leads to, if it is there. -/
def target (fs : Fs) (i : Nat) (name : OsStr) : Option Nat :=
  ((fs.entryAt i).bind (follow · name)).filter fs.live

theorem target_some {t : Nat} (here : fs.entryAt i = some e) (leads : follow e name = some t)
    (there : fs.entryAt t = some e') : fs.target i name = some t := by
  simp [target, here, leads, live, there]

theorem target_dead {t : Nat} (here : fs.entryAt i = some e) (leads : follow e name = some t)
    (gone : fs.entryAt t = none) : fs.target i name = none := by
  simp [target, here, leads, live, gone]

theorem target_none (here : fs.entryAt i = some e) (leads : follow e name = none) :
    fs.target i name = none := by
  simp [target, here, leads]

theorem target_live {t : Nat} (found : fs.target i name = some t) : ∃ e, fs.entryAt t = some e := by
  obtain ⟨_, there⟩ := Option.filter_eq_some_iff.mp found
  exact Option.isSome_iff_exists.mp there

inductive LookedAt (fs : Fs) (i : Nat) (name : OsStr) : Except IoError InodeLookup × Fs → Prop where
  | found (t : Nat) (fs' : Fs) (leads : fs.target i name = some t)
      (swept : Swept (fs.update t addLookup) fs') :
      LookedAt fs i name (.ok t, fs')
  | missing (error : IoError) (fs' : Fs) (nowhere : fs.target i name = none)
      (swept : Swept fs fs') :
      LookedAt fs i name (.error error, fs')

/-- The lookup of the target, under the guard of where it starts. -/
theorem Wf.lookupNext (wf : Wf fs loose) (here : fs.entryAt i = some e) {t : Nat}
    (leads : follow e name = some t) :
    ∃ r, Fs.leaving i ((fs.update i addLookup).lookup t) = .ok r ∧ Wf r.2 loose ∧
      LookedAt fs i name r := by
  cases there : fs.entryAt t with
  | none =>
      obtain ⟨error, looked⟩ := lookup_none (entryAt_update_none (i := i) addLookup there)
      obtain ⟨fs', left, wf', swept⟩ :=
        wf.leaving here (Except.error error : Except IoError InodeLookup)
      rw [looked]
      exact ⟨_, left, wf', .missing error fs' (target_dead here leads there) swept⟩
  | some e' =>
      obtain ⟨e₁, there₁⟩ : ∃ e₁, (fs.update i addLookup).entryAt t = some e₁ := by
        rw [entryAt_update, there]
        split
        · exact ⟨_, rfl⟩
        · exact ⟨_, rfl⟩
      obtain ⟨e₂, here₂⟩ : ∃ e₂, (fs.update t addLookup).entryAt i = some e₂ := by
        rw [entryAt_update, here]
        split
        · exact ⟨_, rfl⟩
        · exact ⟨_, rfl⟩
      obtain ⟨fs', dropped, wf', swept⟩ := (wf.update there (alike_addLookup e')).dropGuard here₂
      rw [lookup_ok there₁, guards_comm]
      exact ⟨_, leaving_ok dropped, wf', .found t fs' (target_some here leads there) swept⟩

theorem lookupAt_spec (wf : Wf fs loose) (i : Nat) (name : OsStr) :
    ∃ r, fs.lookupAt i name = .ok r ∧ Wf r.2 loose ∧ LookedAt fs i name r := by
  cases here : fs.entryAt i with
  | none =>
      obtain ⟨error, looked⟩ := lookup_none here
      refine ⟨(.error error, fs), ?_, wf, .missing error fs ?_ (.refl fs)⟩
      · simp only [lookupAt, looked]
      · simp [target, here]
  | some e =>
      have inode := (wf.numbered i e here).2.1
      by_cases self : name = dot
      · have leads : follow e name = some i := by simp [follow, self, inode]
        refine ⟨(.ok i, fs.update i addLookup), ?_, wf.update here (alike_addLookup e),
          .found i _ (target_some here leads here) (.refl _)⟩
        simp only [lookupAt, lookup_ok here, self, if_true]
      · have derefed := deref_ok (entryAt_update_self here addLookup)
        simp only [lookupAt, lookup_ok here, self, if_false, derefed, Except.ok_bind]
        cases content : e.content with
        | file data =>
            have leads : follow e name = none := by simp [follow, self, content, FsContent.isDir]
            obtain ⟨fs', left, wf', swept⟩ :=
              wf.leaving here (Except.error (.os ENOTDIR) : Except IoError InodeLookup)
            simp only [addLookup, content]
            exact ⟨_, left, wf', .missing _ fs' (target_none here leads) swept⟩
        | dir files =>
            simp only [addLookup, content]
            by_cases up : name = dotdot
            · have leads : follow e name = some e.parent := by
                rw [follow, if_neg self, content, FsContent.isDir, if_pos rfl, if_pos up]
              simp only [up, if_true]
              exact up ▸ wf.lookupNext here leads
            · have leads : follow e name = files[name]? := by
                rw [follow, if_neg self, content, FsContent.isDir, if_pos rfl, if_neg up,
                  FsContent.name?_dir]
              simp only [up, if_false]
              cases held : files[name]? with
              | none =>
                  obtain ⟨fs', left, wf', swept⟩ :=
                    wf.leaving here (Except.error (.os ENOENT) : Except IoError InodeLookup)
                  exact ⟨_, left, wf', .missing _ fs' (target_none here (leads.trans held)) swept⟩
              | some t => exact wf.lookupNext here (leads.trans held)

/-! ### Forgetting -/

theorem forget_live (wf : Wf fs loose) (here : fs.entryAt i = some e) (n : UInt64) :
    ∃ fs', fs.forget i n = .ok (.ok (), fs') ∧ Wf fs' loose ∧ Forgotten fs i e n fs' := by
  obtain ⟨fs', forgot, wf', forgotten⟩ := forgetEntry_spec wf here n
  refine ⟨fs', ?_, wf', forgotten⟩
  simp only [forget, Slots.getElem?_of_get? here, forgot, Except.ok_bind]
  rfl

theorem forget_gone (gone : fs.entryAt i = none) (n : UInt64) :
    ∃ error, fs.forget i n = .ok (.error error, fs) := by
  rw [entryAt, Slots.get?] at gone
  unfold forget
  split
  · next found => rw [found] at gone; cases gone
  · exact ⟨_, rfl⟩
  · exact ⟨_, rfl⟩

/-! ### Creating -/

/-- A new entry, before its first lookup. -/
def born (inode parent : Nat) (mode : UInt32) (content : FsContent) (now : Duration) : FsEntry where
  inode := inode
  parent := parent
  lookups := 0
  links := 1
  stat := { newStat 0 mode 0 0 now with stIno := UInt64.ofNat inode }
  content := content

def adopt (name : OsStr) (inode : Nat) (e : FsEntry) : FsEntry :=
  { e with content := e.content.mapFiles (·.insert name inode) }

/-- A new entry stands in a slot that was empty, under a name that was free. -/
structure Linked (fs : Fs) (p : Nat) (name : OsStr) (i : Nat) (new : FsEntry) (fs' : Fs) :
    Prop where
  fresh : fs.entryAt i = none
  entries : ∀ j, fs'.entryAt j =
    if j = i then some new else if j = p then (fs.entryAt j).map (adopt name i) else fs.entryAt j

theorem adopt_name (dir : e.content.isDir = true) (name key : OsStr) (i : Nat) :
    (adopt name i e).content.name? key = if key = name then some i else e.content.name? key := by
  cases content : e.content with
  | file data =>
      rw [content] at dir
      cases dir
  | dir files =>
      simp only [adopt, content, FsContent.mapFiles, FsContent.name?_dir,
        Std.ExtTreeMap.getElem?_insert]
      by_cases same : name = key
      · simp [same]
      · simp [same, Ne.symm same]

theorem adopt_isDir (name : OsStr) (i : Nat) (e : FsEntry) :
    (adopt name i e).content.isDir = e.content.isDir := by
  cases content : e.content with
  | file data => simp [adopt, content, FsContent.mapFiles]
  | dir files => simp [adopt, content, FsContent.mapFiles, FsContent.isDir]

theorem Linked.apart {new : FsEntry} (linked : Linked fs p name i new fs')
    (holder : fs.entryAt p = some e) : p ≠ i := by
  rintro rfl
  rw [linked.fresh] at holder
  cases holder

theorem Linked.new {new : FsEntry} (linked : Linked fs p name i new fs') :
    fs'.entryAt i = some new := by
  rw [linked.entries, if_pos rfl]

theorem Linked.holder {new : FsEntry} (linked : Linked fs p name i new fs')
    (holder : fs.entryAt p = some e) :
    fs'.entryAt p = some (adopt name i e) := by
  rw [linked.entries, if_neg (linked.apart holder), if_pos rfl, holder]
  rfl

theorem Linked.tree {new : FsEntry} (linked : Linked fs p name i new fs')
    (holder : fs.entryAt p = some e) (dir : e.content.isDir = true) (one : new.links = 1)
    (parent : new.parent = p) (empty : ∀ key, new.content.name? key = none) :
    fs'.tree = fs.tree.grow p name i := by
  have apart := linked.apart holder
  apply tree_ext
  · intro j
    rw [tree_node, linked.entries]
    simp only [LinkTree.grow, tree_node]
    by_cases first : j = i
    · simp [first, one, parent]
    · by_cases second : j = p
      · simp [second, apart, holder, adopt]
      · simp [first, second]
  · intro d key
    rw [tree_child, linked.entries]
    simp only [LinkTree.grow, tree_child]
    by_cases first : d = i
    · subst first
      simp [Ne.symm apart, empty, linked.fresh]
    · by_cases second : d = p
      · subst second
        simp [first, holder, adopt_name dir]
      · simp [first, second]

theorem takeInode_nil (free : fs.freeInodes = []) :
    fs.takeInode = (fs.entries.length, ⟨fs.entries ++ [none], []⟩) := by
  unfold takeInode
  split
  · next used => simp [free] at used
  · rw [free]

theorem takeInode_cons {rest : List Nat} (free : fs.freeInodes = i :: rest) :
    fs.takeInode = (i, ⟨fs.entries, rest⟩) := by
  unfold takeInode
  split
  · next used =>
      rw [free] at used
      cases used
      rfl
  · next used => simp [free] at used

theorem takeInode_fresh (wf : Wf fs loose) :
    fs.entryAt fs.takeInode.1 = none ∧ 1 ≤ fs.takeInode.1 := by
  cases free : fs.freeInodes with
  | nil =>
      rw [takeInode_nil free]
      refine ⟨?_, ?_⟩
      · simp [entryAt, Slots.get?]
      · obtain ⟨up, node⟩ := wf.sound.root_node
        rw [tree_node, Option.map_eq_some_iff] at node
        obtain ⟨e, here, _⟩ := node
        exact Nat.one_le_of_lt (entryAt_lt here)
  | cons i rest =>
      rw [takeInode_cons free]
      obtain ⟨low, _, empty⟩ := (wf.slots.mem i).mp (by rw [free]; exact List.mem_cons_self)
      exact ⟨empty, low⟩

/-- Filling the slot that was taken. -/
theorem takeInode_filled (wf : Wf fs loose) (new : FsEntry) :
    fs.takeInode.1 < fs.takeInode.2.entries.length ∧
      Slots.Free 1 (fs.takeInode.2.entries.set fs.takeInode.1 (some new))
        fs.takeInode.2.freeInodes ∧
      ∀ j, Slots.get? (fs.takeInode.2.entries.set fs.takeInode.1 (some new)) j =
        if j = fs.takeInode.1 then some new else fs.entryAt j := by
  have slots := wf.slots
  cases free : fs.freeInodes with
  | nil =>
      rw [free] at slots
      rw [takeInode_nil free]
      refine ⟨by simp, slots.extend new, ?_⟩
      intro j
      rw [Slots.get?_set (by simp), Slots.get?_append_none, entryAt]
      simp only [eq_comm]
  | cons i rest =>
      rw [free] at slots
      rw [takeInode_cons free]
      have inside := ((slots.mem i).mp List.mem_cons_self).2.1
      refine ⟨inside, slots.reuse new, ?_⟩
      intro j
      rw [Slots.get?_set inside, entryAt]
      simp only [eq_comm]

/-- Putting a new entry under a name that is free keeps the invariant. -/
theorem Linked.wf {new : FsEntry} (linked : Linked fs p name i new fs') (wf : Wf fs loose)
    (holder : fs.entryAt p = some e) (dir : e.content.isDir = true)
    (free : e.content.name? name = none) (one : new.links = 1) (parent : new.parent = p)
    (empty : ∀ key, new.content.name? key = none)
    (numbered : 1 ≤ i ∧ new.inode = i ∧ new.stat.stIno = UInt64.ofNat i)
    (slots : Slots.Free 1 fs'.entries fs'.freeInodes) : Wf fs' loose where
  sound := by
    rw [linked.tree holder dir one parent empty]
    refine wf.sound.grow (node_of_entry holder) ?_ ?_
    · rw [child_of_entry holder, free]
    · rw [tree_node, linked.fresh]
      rfl
  slots := slots
  numbered j e' found := by
    rw [linked.entries] at found
    split at found
    · next same =>
        cases found
        rw [same]
        exact numbered
    · split at found
      · obtain ⟨old, there, rfl⟩ := Option.map_eq_some_iff.mp found
        exact wf.numbered j old there
      · exact wf.numbered j e' found
  root_dir e' found := by
    rw [linked.entries] at found
    split at found
    · next same =>
        obtain ⟨up, node⟩ := wf.sound.root_node
        rw [tree_node, same, linked.fresh] at node
        cases node
    · split at found
      · obtain ⟨old, there, rfl⟩ := Option.map_eq_some_iff.mp found
        rw [adopt_isDir]
        exact wf.root_dir old there
      · exact wf.root_dir e' found

theorem link_spec (wf : Wf fs loose) (holder : fs.entryAt p = some e) (dir : e.content.isDir = true)
    (free : e.content.name? name = none) (mode : UInt32) {content : FsContent} (now : Duration)
    (empty : ∀ key, content.name? key = none) :
    ∃ mid, fs.link p name mode content now = .ok
      (fs.takeInode.1, mid.update fs.takeInode.1 addLookup) ∧
      Wf mid loose ∧ Linked fs p name fs.takeInode.1
        (born fs.takeInode.1 p mode content now) mid := by
  obtain ⟨fresh, low⟩ := takeInode_fresh wf
  obtain ⟨inside, slots, placed⟩ := takeInode_filled wf (born fs.takeInode.1 p mode content now)
  generalize taken : fs.takeInode.1 = i at *
  have apart : p ≠ i := by
    rintro rfl
    rw [fresh] at holder
    cases holder
  let filled : Fs :=
    { fs.takeInode.2 with
      entries := fs.takeInode.2.entries.set i (some (born i p mode content now)) }
  have linked : Linked fs p name i (born i p mode content now)
      (filled.update p (adopt name i)) := by
    refine ⟨fresh, ?_⟩
    intro j
    have before : filled.entryAt j = if j = i then some (born i p mode content now)
        else fs.entryAt j := placed j
    rw [entryAt_update, before]
    by_cases first : j = i
    · subst first
      simp [apart]
    · by_cases second : j = p
      · subst second
        simp [first]
      · simp [first, second, Ne.symm second]
  refine ⟨filled.update p (adopt name i), ?_, ?_, linked⟩
  · simp only [link, taken, inside, if_true]
    rfl
  · exact linked.wf wf holder dir free rfl rfl empty ⟨low, rfl, rfl⟩ (slots.update p (adopt name i))

theorem takeInode_update (fs : Fs) (j : Nat) (f : FsEntry → FsEntry) :
    (fs.update j f).takeInode.1 = fs.takeInode.1 := by
  cases free : fs.freeInodes with
  | nil =>
      rw [takeInode_nil free, takeInode_nil (show (fs.update j f).freeInodes = [] from free)]
      exact Slots.length_update fs.entries j f
  | cons i rest =>
      rw [takeInode_cons free, takeInode_cons
        (show (fs.update j f).freeInodes = i :: rest from free)]

/-- A directory that can take a new name. -/
def Vacant (fs : Fs) (p : Nat) (name : OsStr) : Prop :=
  ∃ e, fs.entryAt p = some e ∧ e.content.isDir = true ∧ e.content.name? name = none

inductive Made (fs : Fs) (p : Nat) (name : OsStr) (mode : UInt32) (content : FsContent)
    (now : Duration) :
    Except IoError InodeLookup × Fs → Prop where
  | made (mid fs' : Fs) (vacant : fs.Vacant p name) (wf : Wf mid [])
      (linked : Linked fs p name fs.takeInode.1 (born fs.takeInode.1 p mode content now) mid)
      (swept : Swept (mid.update fs.takeInode.1 addLookup) fs') :
      Made fs p name mode content now (.ok fs.takeInode.1, fs')
  | refused (error : IoError) (fs' : Fs) (taken : ¬ fs.Vacant p name) (swept : Swept fs fs') :
      Made fs p name mode content now (.error error, fs')

/-- The guard of the directory makes no difference to what is put into it. -/
theorem Linked.guarded {mid mid₁ : Fs} {new : FsEntry} (linked : Linked fs p name i new mid)
    (linked₁ : Linked (fs.update p addLookup) p name i new mid₁) (holder : fs.entryAt p = some e)
    (j : Nat) :
    (mid₁.update i addLookup).entryAt j = ((mid.update i addLookup).update p addLookup).entryAt
      j := by
  have apart := linked.apart holder
  simp only [entryAt_update, linked.entries, linked₁.entries]
  by_cases first : j = i
  · subst first
    simp [apart]
  · by_cases second : j = p
    · subst second
      simp only [first, Ne.symm first, if_true, if_false, holder, Option.map_some]
      rfl
    · simp [first, second, Ne.symm first, Ne.symm second]

theorem doCreate_spec (wf : Wf fs []) (p : Nat) (name : OsStr) (mode : UInt32) {content : FsContent}
    (now : Duration) (empty : ∀ key, content.name? key = none) :
    ∃ r, fs.doCreate p name mode content now = .ok r ∧ Wf r.2 [] ∧
      Made fs p name mode content now r := by
  cases holder : fs.entryAt p with
  | none =>
      obtain ⟨error, looked⟩ := lookup_none holder
      refine ⟨(.error error, fs), ?_, wf, .refused error fs ?_ (.refl fs)⟩
      · simp only [doCreate, looked]
      · rintro ⟨e, here, _⟩
        rw [holder] at here
        cases here
  | some e =>
      have holder₁ := entryAt_update_self holder addLookup
      have wf₁ := wf.update holder (alike_addLookup e)
      simp only [doCreate, lookup_ok holder, deref_ok holder₁, Except.ok_bind]
      cases kind : e.content with
      | file data =>
          obtain ⟨fs', left, wf', swept⟩ :=
            wf.leaving holder (Except.error (.os ENOTDIR) : Except IoError InodeLookup)
          simp only [addLookup, kind]
          refine ⟨_, left, wf', .refused _ fs' ?_ swept⟩
          rintro ⟨e', here, dir, _⟩
          rw [holder] at here
          cases here
          rw [kind] at dir
          cases dir
      | dir files =>
          simp only [addLookup, kind]
          by_cases taken : name ∈ files
          · obtain ⟨fs', left, wf', swept⟩ :=
              wf.leaving holder (Except.error (.os EEXIST) : Except IoError InodeLookup)
            simp only [taken, if_true]
            refine ⟨_, left, wf', .refused _ fs' ?_ swept⟩
            rintro ⟨e', here, _, free⟩
            rw [holder] at here
            cases here
            rw [kind, FsContent.name?_dir] at free
            have held := Std.ExtTreeMap.mem_iff_isSome_getElem?.mp taken
            rw [free] at held
            cases held
          · have dir : e.content.isDir = true := by
              rw [kind]
              rfl
            have free : e.content.name? name = none := by
              rw [kind, FsContent.name?_dir]
              exact Std.ExtTreeMap.getElem?_eq_none taken
            obtain ⟨mid, _, wfMid, linked⟩ := link_spec wf holder dir free mode now empty
            obtain ⟨mid₁, made, wfMid₁, linked₁⟩ := link_spec wf₁ holder₁ dir free mode now empty
            rw [takeInode_update] at made linked₁
            have same := linked.guarded linked₁ holder
            have there : (mid.update fs.takeInode.1 addLookup).entryAt p =
                some (adopt name fs.takeInode.1 e) := by
              rw [entryAt_update_ne mid _ (Ne.symm (linked.apart holder))]
              exact linked.holder holder
            obtain ⟨fs', dropped, wf', swept⟩ := (Swept.of_entries same).dropGuard
              (wfMid₁.update linked₁.new (alike_addLookup _)) there
              ((same p).trans (entryAt_update_self there addLookup))
            simp only [taken, if_false, made, Except.ok_bind]
            exact ⟨_, leaving_ok dropped, wf',
              .made mid fs' ⟨e, holder, dir, free⟩ wfMid linked swept⟩

/-! ### Unlinking -/

def disown (name : OsStr) (e : FsEntry) : FsEntry :=
  { e with content := e.content.mapFiles (·.erase name) }

theorem disown_dir {files : Files} (dir : e.content = .dir files) (name : OsStr) :
    disown name e = { e with content := .dir (files.erase name) } := by
  rw [disown, dir]
  rfl

/-- The inode that a name may be taken from. -/
def removable (fs : Fs) (p : Nat) (name : OsStr) (isRmdir : Bool) : Option Nat :=
  ((fs.entryAt p).bind (·.content.name? name)).filter fun c =>
    (fs.entryAt c).any fun e => (refusal e.content isRmdir).isNone

theorem refusal_leaf {content : FsContent} {isRmdir : Bool}
    (allowed : refusal content isRmdir = none) (name : OsStr) :
    content.name? name = none := by
  cases content with
  | file data => rfl
  | dir files =>
      simp only [refusal] at allowed
      split at allowed
      · cases allowed
      · split at allowed
        · cases allowed
        · next empty =>
            have none : files.isEmpty = true := by simpa using empty
            rw [FsContent.name?_dir, Std.ExtTreeMap.isEmpty_iff.mp none]
            exact Std.ExtTreeMap.getElem?_empty

/-- Taking a name out and putting it back. -/
theorem adopt_disown {c : Nat} (held : e.content.name? name = some c) :
    adopt name c (disown name e) = e := by
  cases content : e.content with
  | file data =>
      rw [content] at held
      cases held
  | dir files =>
      rw [content, FsContent.name?_dir] at held
      have same : (files.erase name).insert name c = files := by
        apply Std.ExtTreeMap.ext_getElem?
        intro key
        rw [Std.ExtTreeMap.getElem?_insert]
        split
        · next eq =>
            rw [Std.LawfulEqCmp.eq_of_compare eq] at held
            exact held.symm
        · next ne => rw [Std.ExtTreeMap.getElem?_erase, if_neg ne]
      simp only [adopt, disown, content, FsContent.mapFiles, same]
      rw [← content]

inductive Unlinked (fs : Fs) (p : Nat) (name : OsStr) (isRmdir : Bool) :
    Except IoError Unit × Fs → Prop where
  | done (c : Nat) (fs' : Fs) (allowed : fs.removable p name isRmdir = some c)
      (swept : Swept ((fs.update p (disown name)).update c subLink) fs')
      (ends : ∀ e, fs'.entryAt c = some e → 1 < e.lookups + 1) :
      Unlinked fs p name isRmdir (.ok (), fs')
  | refused (error : IoError) (fs' : Fs) (kept : fs.removable p name isRmdir = none)
      (swept : Swept fs fs') :
      Unlinked fs p name isRmdir (.error error, fs')

/-- What stands under a name is an entry of its own, counted once. -/
theorem Wf.child_entry {c : Nat} (wf : Wf fs loose) (holder : fs.entryAt p = some e)
    (held : e.content.name? name = some c) :
    p ≠ c ∧ ∃ e', fs.entryAt c = some e' ∧ e'.links = 1 ∧ e'.parent = p := by
  have child : fs.tree.child p name = some c := (child_of_entry holder name).trans held
  refine ⟨wf.sound.child_ne child, ?_⟩
  have node := (wf.sound.held p name c child).1.node
  rw [tree_node, Option.map_eq_some_iff] at node
  obtain ⟨e', here, same⟩ := node
  refine ⟨e', here, UInt64.toNat.inj ?_, ?_⟩
  · exact congrArg LinkNode.links same
  · exact congrArg LinkNode.up same

theorem Wf.disowned {files : Files} {c : Nat} (wf : Wf fs loose) (holder : fs.entryAt p = some e)
    (dir : e.content = .dir files) (held : files[name]? = some c) :
    Wf (fs.update p (disown name)) (c :: loose) := by
  refine wf.cut holder (by rw [dir]; rfl) (disown_dir dir name) (· = name) ?_
    (List.nodup_singleton c) ?_
  · intro key
    rw [dir, FsContent.name?_dir, Std.ExtTreeMap.getElem?_erase]
    by_cases same : key = name
    · simp [same]
    · simp [same, Ne.symm same]
  · intro c'
    rw [dir, List.mem_singleton]
    constructor
    · rintro rfl
      exact ⟨name, rfl, held⟩
    · rintro ⟨_, rfl, again⟩
      rw [FsContent.name?_dir, held] at again
      exact (Option.some.inj again).symm

/-- A name that is put back, with the guard of its entry on. -/
theorem adopt_restores {c : Nat} (here : fs.entryAt p = some e) (apart : p ≠ c)
    (held : e.content.name? name = some c) :
    ((fs.update p (disown name)).update c addLookup).update p (adopt name c) =
      fs.update c addLookup := by
  rw [update_comm _ (Ne.symm apart) addLookup (adopt name c), update_update,
    update_id here (adopt_disown held)]

/-- The guards of an unlink can be put on after it. -/
theorem unlink_guards {c : Nat} (fs : Fs) (apart : p ≠ c) (name : OsStr) :
    (((fs.update p addLookup).update p (disown name)).update c addLookup).update c subLink =
      ((((fs.update p (disown name)).update c subLink).update p addLookup).update c addLookup) := by
  rw [update_comm _ (Ne.symm apart) subLink addLookup]
  simp only [update_update]
  rfl

theorem unlinkIn_spec (wf : Wf fs []) (holder : fs.entryAt p = some e) {files : Files}
    (dir : e.content = .dir files) (name : OsStr) (isRmdir : Bool) :
    ∃ r, (fs.update p addLookup).unlinkIn p files name isRmdir = .ok r ∧ Wf r.2 [] ∧
      Unlinked fs p name isRmdir r := by
  have names : e.content.name? name = files[name]? := by rw [dir, FsContent.name?_dir]
  cases held : files[name]? with
  | none =>
      obtain ⟨fs', left, wf', swept⟩ :=
        wf.leaving holder (Except.error (.os ENOENT) : Except IoError Unit)
      simp only [unlinkIn, held]
      refine ⟨_, left, wf', .refused _ fs' ?_ swept⟩
      simp [removable, holder, names, held]
  | some c =>
      obtain ⟨apart, ec, child, one, _⟩ := wf.child_entry holder (names.trans held)
      have allowed : fs.removable p name isRmdir =
          if (refusal ec.content isRmdir).isNone then some c else none := by
        simp [removable, holder, names, held, child, Option.filter]
      have child₂ : ((fs.update p addLookup).update p (disown name)).entryAt c = some ec := by
        rw [entryAt_update_ne _ _ apart, entryAt_update_ne _ _ apart, child]
      have holder₁ := entryAt_update_self holder addLookup
      have wf₁ := wf.update holder (alike_addLookup e)
      have looked : ((fs.update p addLookup).update p fun entry =>
          { entry with content := entry.content.mapFiles (·.erase name) }).lookup c =
            (.ok c, ((fs.update p addLookup).update p (disown name)).update c addLookup) :=
              lookup_ok child₂
      simp only [unlinkIn, held, looked, deref_ok (entryAt_update_self child₂ addLookup),
        Except.ok_bind]
      cases refuses : refusal ec.content isRmdir with
      | some errno =>
          -- the name goes back in, and the entry it leads to is still linked
          have restored := adopt_restores holder₁ apart (names.trans held)
          have linked : ec.links ≠ 0 := by
            rw [one]
            decide
          have dropped :=
            dropGuard_kept wf₁ (i := c) ((entryAt_update_ne fs addLookup apart).trans child)
              (.inr linked)
          obtain ⟨fs', left, wf', swept⟩ :=
            wf.leaving holder (Except.error (.os errno) : Except IoError Unit)
          refine ⟨(.error (.os errno), fs'), ?_, wf', .refused _ fs' ?_ swept⟩
          · rw [← restored] at dropped
            simp only [addLookup, refuses]
            exact (congrArg (· >>= fun self => Fs.leaving p (.error (.os errno), self))
              dropped).trans left
          · rw [allowed, refuses]
            rfl
      | none =>
          have cut := (wf.disowned holder dir held).subLink
          have holder₂ : ((fs.update p (disown name)).update c subLink).entryAt p =
              some (disown name e) := by
            rw [entryAt_update_ne _ _ (Ne.symm apart)]
            exact entryAt_update_self holder (disown name)
          have child₃ : (((fs.update p (disown name)).update c subLink).update p addLookup).entryAt
              c =
              some (subLink ec) := by
            rw [entryAt_update_ne _ _ apart]
            exact entryAt_update_self ((entryAt_update_ne fs _ apart).trans child) subLink
          obtain ⟨mid, dropped, wfMid, sweptMid⟩ :=
            (cut.update holder₂ (alike_addLookup _)).dropGuard child₃
          -- the entry holds no names, so that its end leaves the directory alone
          have holder₃ : mid.entryAt p = some (addLookup (disown name e)) := by
            rw [forgetEntry_leaf (entryAt_update_self child₃ addLookup) (wf.numbered c ec child).2.1
              (refusal_leaf refuses) dropped apart, entryAt_update_ne _ _ (Ne.symm apart)]
            exact entryAt_update_self holder₂ addLookup
          obtain ⟨fs', dropped', wf', swept⟩ := sweptMid.dropGuard wfMid holder₂ holder₃
          refine ⟨(.ok (), fs'), ?_, wf', .done c fs' ?_ swept ?_⟩
          · rw [← unlink_guards fs apart name] at dropped
            simp only [addLookup, refuses]
            exact (congrArg (· >>= fun self => Fs.leaving p (.ok (), self)) dropped).trans
              (leaving_ok dropped')
          · rw [allowed, refuses]
            rfl
          · intro e' left
            by_contra uncounted
            obtain ⟨e₁, before, fades⟩ := swept.origin left
            rw [entryAt_update_self ((entryAt_update_ne fs _ apart).trans child) subLink] at before
            cases before
            have unlinked : (addLookup (subLink ec)).links = 0 := by
              simp only [addLookup, subLink, one]
              rfl
            have last : ¬ 1 < (addLookup (subLink ec)).lookups := by
              rw [fades.lookups] at uncounted
              exact uncounted
            have guarded :=
              (cut.update holder₂ (alike_addLookup _)).update child₃ (alike_addLookup _)
            have collected :=
              dropLookup_collects guarded (entryAt_update_self child₃ addLookup) unlinked
                last dropped
            rw [dropLookup_away wfMid holder₃ dropped' collected] at left
            cases left

theorem unlink_spec (wf : Wf fs []) (p : Nat) (name : OsStr) (isRmdir : Bool) :
    ∃ r, fs.unlink p name isRmdir = .ok r ∧ Wf r.2 [] ∧ Unlinked fs p name isRmdir r := by
  cases holder : fs.entryAt p with
  | none =>
      obtain ⟨error, looked⟩ := lookup_none holder
      refine ⟨(.error error, fs), ?_, wf, .refused error fs ?_ (.refl fs)⟩
      · simp only [unlink, looked]
      · simp [removable, holder]
  | some e =>
      simp only [unlink, lookup_ok holder, deref_ok (entryAt_update_self holder addLookup),
        Except.ok_bind]
      cases kind : e.content with
      | file data =>
          obtain ⟨fs', left, wf', swept⟩ :=
            wf.leaving holder (Except.error (.os ENOTDIR) : Except IoError Unit)
          simp only [addLookup, kind]
          refine ⟨_, left, wf', .refused _ fs' ?_ swept⟩
          simp [removable, holder, kind]
      | dir files =>
          simp only [addLookup, kind]
          exact unlinkIn_spec wf holder kind name isRmdir

/-! ### Files -/

/-- What a write leaves in the entry of a file. -/
def stored (file : BlockFile) (size : Nat) (e : FsEntry) : FsEntry :=
  { e with content := .file file, stat.stSize := (UInt64.ofNat size).toInt64 }

theorem alike_stored {data : BlockFile} (kind : e.content = .file data) (file : BlockFile)
    (size : Nat) :
    Alike e (stored file size e) := by
  refine ⟨rfl, rfl, rfl, rfl, ?_, ?_⟩
  · intro key
    rw [kind]
    rfl
  · rw [kind]
    rfl

inductive Wrote (fs : Fs) (depth : Nat) (i : Nat) (data : Bytes) (offset : Nat) :
    Except Crash (Except IoError Unit × Fs) → Prop where
  | stored (e : FsEntry) (old new : BlockFile) (size : Nat) (fs' : Fs)
      (here : fs.entryAt i = some e) (kind : e.content = .file old)
      (written : old.write depth data offset = .ok new) (sized : new.size = .ok size)
      (wf : Wf fs' []) (swept : Swept (fs.update i (stored new size)) fs') :
      Wrote fs depth i data offset (.ok (.ok (), fs'))
  | refused (error : IoError) (fs' : Fs)
      (none : ∀ e, fs.entryAt i = some e → e.content.isDir = true) (wf : Wf fs' [])
      (swept : Swept fs fs') : Wrote fs depth i data offset (.ok (.error error, fs'))
  | crashed (e : FsEntry) (old : BlockFile) (crash : Crash) (here : fs.entryAt i = some e)
      (kind : e.content = .file old)
      (stuck : (old.write depth data offset >>= (·.size)) = .error crash) :
      Wrote fs depth i data offset (.error crash)

theorem write_spec (wf : Wf fs []) (depth i : Nat) (data : Bytes) (offset : Nat) :
    Wrote fs depth i data offset (fs.write depth i data offset) := by
  cases here : fs.entryAt i with
  | none =>
      obtain ⟨error, looked⟩ := lookup_none here
      simp only [write, looked]
      refine .refused error fs ?_ wf (.refl fs)
      intro e there
      rw [here] at there
      cases there
  | some e =>
      have here₁ := entryAt_update_self here addLookup
      simp only [write, lookup_ok here, deref_ok here₁, Except.ok_bind]
      cases kind : e.content with
      | dir files =>
          obtain ⟨fs', left, wf', swept⟩ :=
            wf.leaving here (Except.error (.os EBADF) : Except IoError Unit)
          simp only [addLookup, kind]
          rw [show Fs.leaving i _ = _ from left]
          refine .refused _ fs' ?_ wf' swept
          intro e' there
          rw [here] at there
          cases there
          rw [kind]
          rfl
      | file old =>
          simp only [addLookup, kind]
          cases written : old.write depth data offset with
          | error crash =>
              refine .crashed e old crash here kind ?_
              rw [written]
              rfl
          | ok new =>
              simp only [Except.ok_bind]
              cases sized : new.size with
              | error crash =>
                  refine .crashed e old crash here kind ?_
                  rw [written]
                  exact sized
              | ok size =>
                  have wf₂ := wf.update here (alike_stored kind new size)
                  obtain ⟨fs', dropped, wf', swept⟩ :=
                    wf₂.dropGuard (entryAt_update_self here (stored new size))
                  have same : (fs.update i addLookup).update i (stored new size) =
                      (fs.update i (stored new size)).update i addLookup := by
                    rw [update_update, update_update]
                    rfl
                  rw [← same] at dropped
                  simp only [Except.ok_bind]
                  rw [show Fs.leaving i _ = _ from leaving_ok dropped]
                  exact .stored e old new size fs' here kind written sized wf' swept

inductive ReadBack (fs : Fs) (i : Nat) (data : Bytes) (offset : Nat) :
    Except Crash (Except IoError (Nat × Bytes) × Fs) → Prop where
  | read (e : FsEntry) (file : BlockFile) (got : Nat × Bytes) (fs' : Fs)
      (here : fs.entryAt i = some e) (kind : e.content = .file file)
      (done : file.read data offset = .ok got) (wf : Wf fs' []) (swept : Swept fs fs') :
      ReadBack fs i data offset (.ok (.ok got, fs'))
  | refused (error : IoError) (fs' : Fs)
      (none : ∀ e, fs.entryAt i = some e → e.content.isDir = true) (wf : Wf fs' [])
      (swept : Swept fs fs') : ReadBack fs i data offset (.ok (.error error, fs'))
  | crashed (e : FsEntry) (file : BlockFile) (crash : Crash) (here : fs.entryAt i = some e)
      (kind : e.content = .file file) (stuck : file.read data offset = .error crash) :
      ReadBack fs i data offset (.error crash)

theorem read_spec (wf : Wf fs []) (i : Nat) (data : Bytes) (offset : Nat) :
    ReadBack fs i data offset (fs.read i data offset) := by
  cases here : fs.entryAt i with
  | none =>
      obtain ⟨error, looked⟩ := lookup_none here
      simp only [read, looked]
      refine .refused error fs ?_ wf (.refl fs)
      intro e there
      rw [here] at there
      cases there
  | some e =>
      have here₁ := entryAt_update_self here addLookup
      simp only [read, lookup_ok here, deref_ok here₁, Except.ok_bind]
      cases kind : e.content with
      | dir files =>
          obtain ⟨fs', left, wf', swept⟩ :=
            wf.leaving here (Except.error (.os EBADF) : Except IoError (Nat × Bytes))
          simp only [addLookup, kind]
          rw [show Fs.leaving i _ = _ from left]
          refine .refused _ fs' ?_ wf' swept
          intro e' there
          rw [here] at there
          cases there
          rw [kind]
          rfl
      | file file =>
          simp only [addLookup, kind]
          cases done : file.read data offset with
          | error crash => exact .crashed e file crash here kind done
          | ok got =>
              obtain ⟨fs', left, wf', swept⟩ :=
                wf.leaving here (Except.ok got : Except IoError (Nat × Bytes))
              simp only [Except.ok_bind]
              rw [show Fs.leaving i _ = _ from left]
              exact .read e file got fs' here kind done wf' swept

end ProxmoxFuse.Fs
