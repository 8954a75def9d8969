import ProxmoxFuse.Effects

/-!
# Room for nested calls

Deleting a directory drops what it holds from inside the call that deletes it. With
room for so many nested calls only, a turn of the example server does what it does
with enough room, or it runs out of it below a chain of as many names, each in the
directory the one before it leads to.
-/
namespace ProxmoxFuse
namespace Fs
variable {fs fs' mid : Fs} {i j : Nat} {e : FsEntry}

/-- There is a chain of so many names. -/
def Deep (fs : Fs) (n : Nat) : Prop := ∃ i q c, fs.tree.resolve i q = some c ∧ n ≤ q.length

theorem Deep.mono {m n : Nat} (deep : fs.Deep n) (le : m ≤ n) : fs.Deep m := by
  obtain ⟨i, q, c, path, long⟩ := deep
  exact ⟨i, q, c, path, le.trans long⟩

/-! ### No new names -/

def Narrower (fs fs' : Fs) : Prop :=
  ∀ d name c, fs'.tree.child d name = some c → fs.tree.child d name = some c

theorem Narrower.refl (fs : Fs) : Narrower fs fs := fun _ _ _ held => held

theorem Narrower.trans (first : Narrower fs mid) (second : Narrower mid fs') : Narrower fs fs' :=
  fun d name c held => first d name c (second d name c held)

theorem Narrower.deep (narrower : Narrower fs fs') {n : Nat} (deep : fs'.Deep n) : fs.Deep n := by
  obtain ⟨i, q, c, path, long⟩ := deep
  exact ⟨i, q, c, LinkTree.resolve_mono narrower path, long⟩

theorem update_narrower (fs : Fs) (i : Nat) {f : FsEntry → FsEntry}
    (names : ∀ e name c, fs.entryAt i = some e → (f e).content.name? name = some c →
      e.content.name? name = some c) : Narrower fs (fs.update i f) := by
  intro d name c held
  cases here : fs.entryAt i with
  | none =>
      rw [tree_child, entryAt_update] at held
      split at held
      · next same =>
          subst same
          rw [here] at held
          cases held
      · exact held
  | some e =>
      rw [child_update here] at held
      split at held
      · next same =>
          subst same
          rw [child_of_entry here]
          exact names e name c here held
      · exact held

/-- An update that is not about names. -/
theorem aside_narrower (fs : Fs) (i : Nat) (f : FsEntry → FsEntry)
    (same : ∀ e, (f e).content = e.content) : Narrower fs (fs.update i f) := by
  refine update_narrower fs i ?_
  intro e name c _ held
  rwa [same] at held

theorem lookup_narrower (fs : Fs) (i : Nat) : Narrower fs (fs.lookup i).2 := by
  cases here : fs.entryAt i with
  | none =>
      obtain ⟨error, looked⟩ := lookup_none here
      rw [looked]
      exact .refl fs
  | some e =>
      rw [lookup_ok here]
      exact aside_narrower fs i addLookup fun _ => rfl

theorem emptied_narrower (fs : Fs) (i : Nat) : Narrower fs (fs.update i takeFiles) :=
  update_narrower fs i (by simp [takeFiles])

theorem cleared_narrower (fs : Fs) (i : Nat) (free : List Nat) :
    Narrower fs { entries := fs.entries.set i none, freeInodes := free } := by
  intro d name c held
  rw [tree_child] at held ⊢
  by_cases inside : i < fs.entries.length
  · rw [entryAt, Slots.get?_set inside] at held
    split at held
    · cases held
    · exact held
  · rw [entryAt, List.set_eq_of_length_le (Nat.not_lt.mp inside)] at held
    exact held

/-! ### What a nested call does -/

/-- What dropping lookups of `starts` comes to, with room for so many nested calls. -/
inductive Nested (fs : Fs) (starts : List Nat) (room : Nat) : Except Crash Fs → Prop where
  | returned (fs' : Fs) (narrower : Narrower fs fs') (fewer : fs'.fileCount ≤ fs.fileCount) :
      Nested fs starts room (.ok fs')
  | overflown (i c : Nat) (q : List OsStr) (start : i ∈ starts)
      (path : fs.tree.resolve i q = some c) (long : q.length = room)
      (names : room ≤ fs.fileCount) : Nested fs starts room (.error .stackOverflow)
  | crashed (crash : Crash) (other : crash ≠ .stackOverflow) :
      Nested fs starts room (.error crash)

theorem Nested.after {starts : List Nat} {room : Nat} {out : Except Crash Fs}
    (nested : Nested mid starts room out) (narrower : Narrower fs mid)
    (fewer : mid.fileCount ≤ fs.fileCount) : Nested fs starts room out := by
  cases nested with
  | returned fs' narrower' fewer' =>
      exact .returned fs' (narrower.trans narrower') (fewer'.trans fewer)
  | overflown i c q start path long names =>
      exact .overflown i c q start (LinkTree.resolve_mono narrower path) long (names.trans fewer)
  | crashed crash other => exact .crashed crash other

theorem fileCount_same (here : fs.entryAt i = some e) {f : FsEntry → FsEntry}
    (same : (f e).content = e.content) : (fs.update i f).fileCount = fs.fileCount := by
  have total : (fs.update i f).fileCount + e.content.fileCount =
      fs.fileCount + (f e).content.fileCount := Slots.total_update _ here f
  rw [same] at total
  exact Nat.add_right_cancel total

theorem fileCount_emptied (here : fs.entryAt i = some e) {files : Files}
    (dir : e.content = .dir files) :
    (fs.update i takeFiles).fileCount + files.size = fs.fileCount := by
  have total : (fs.update i takeFiles).fileCount + e.content.fileCount =
      fs.fileCount + (takeFiles e).content.fileCount := Slots.total_update _ here takeFiles
  rw [dir] at total
  exact total

theorem cleared_fileCount (fs : Fs) (i : Nat) (free : List Nat) :
    ({ entries := fs.entries.set i none, freeInodes := free } : Fs).fileCount ≤ fs.fileCount :=
  Slots.total_clear_le _ fs.entries i

theorem dropFiles_nested {room : Nat} {forget : Fs → InodeLookup → Except Crash Fs}
    (drops : ∀ fs i, Nested fs [i] room (forget fs i)) (cs : List Nat) (fs : Fs) :
    Nested fs cs room (dropFiles forget cs fs) := by
  induction cs generalizing fs with
  | nil => exact .returned fs (.refl fs) le_rfl
  | cons c cs ih =>
      cases here : fs.entryAt c with
      | none =>
          obtain ⟨error, looked⟩ := lookup_none here
          simp only [dropFiles, looked]
          exact .returned fs (.refl fs) le_rfl
      | some e =>
          have narrower : Narrower fs ((fs.update c addLookup).update c subLink) :=
            (aside_narrower fs c addLookup fun _ => rfl).trans
              (aside_narrower _ c subLink fun _ => rfl)
          have same : ((fs.update c addLookup).update c subLink).fileCount = fs.fileCount := by
            rw [update_update]
            exact fileCount_same here rfl
          have first := (drops ((fs.update c addLookup).update c subLink) c).after narrower same.le
          simp only [dropFiles, lookup_ok here]
          generalize forget _ c = out at first ⊢
          cases first with
          | crashed crash other => exact .crashed crash other
          | overflown i t q start path long names =>
              cases List.mem_singleton.mp start
              exact .overflown c t q List.mem_cons_self path long names
          | returned fs₁ narrower₁ fewer₁ =>
              have rest := (ih fs₁).after narrower₁ fewer₁
              simp only [Except.ok_bind]
              generalize dropFiles forget cs fs₁ = out at rest ⊢
              cases rest with
              | returned fs₂ narrower₂ fewer₂ => exact .returned fs₂ narrower₂ fewer₂
              | overflown i t q start path long names =>
                  exact .overflown i t q (List.mem_cons_of_mem c start) path long names
              | crashed crash other => exact .crashed crash other

theorem forgetEntryIn_nested (room : Nat) (fs : Fs) (i : Nat) (n : UInt64) :
    Nested fs [i] room (forgetEntryIn room fs i n) := by
  induction room generalizing fs i n with
  | zero =>
      exact .overflown i i [] (List.mem_singleton_self i) rfl rfl (Nat.zero_le _)
  | succ room ih =>
      cases here : fs.entryAt i with
      | none =>
          simp only [forgetEntryIn, deref, here]
          exact .crashed .dangling (by simp)
      | some e =>
          have narrower := aside_narrower fs i (subLookups n) fun _ => rfl
          have same : (fs.update i (subLookups n)).fileCount = fs.fileCount :=
            fileCount_same here rfl
          have here₁ := entryAt_update_self here (subLookups n)
          simp only [forgetEntryIn, deref_ok here, Except.ok_bind]
          split
          · exact .returned _ narrower same.le
          split
          · exact .returned _ narrower same.le
          cases content : e.content with
          | file data =>
              dsimp only
              split
              · exact .returned _ (narrower.trans (cleared_narrower _ _ _))
                  ((cleared_fileCount _ _ _).trans same.le)
              · exact .crashed .panic (by simp)
          | dir files =>
              have emptied := narrower.trans (emptied_narrower (fs.update i (subLookups n)) i)
              have total := fileCount_emptied here₁ content
              have nested := dropFiles_nested (fun fs i => ih fs i 1) (files.toList.map (·.2))
                ((fs.update i (subLookups n)).update i takeFiles)
              dsimp only
              generalize dropFiles _ _ _ = out at nested ⊢
              cases nested with
              | crashed crash other => exact .crashed crash other
              | overflown c t q start path long names =>
                  obtain ⟨⟨name, c⟩, listed, rfl⟩ := List.mem_map.mp start
                  have held : fs.tree.child i name = some c := by
                    rw [child_of_entry here, content]
                    exact Std.ExtTreeMap.mem_toList_iff_getElem?_eq_some.mp listed
                  have some : 0 < files.size := by
                    rw [← Std.ExtTreeMap.length_toList]
                    exact List.length_pos_of_mem listed
                  refine .overflown i t (name :: q) (List.mem_singleton_self i) ?_ (by simp [long])
                    (by omega)
                  simp only [LinkTree.resolve, held, Option.bind_some]
                  exact LinkTree.resolve_mono emptied path
              | returned fs' narrower' fewer' =>
                  have shrunk : fs'.fileCount ≤ fs.fileCount := by omega
                  simp only [Except.ok_bind]
                  split
                  · exact .returned _ ((emptied.trans narrower').trans (cleared_narrower _ _ _))
                      ((cleared_fileCount _ _ _).trans shrunk)
                  · exact .crashed .panic (by simp)

/-! ### Less room -/

theorem dropFiles_cramped {forget forget' : Fs → InodeLookup → Except Crash Fs}
    (drops : ∀ fs i, Cramped .stackOverflow True (forget fs i) (forget' fs i)) (cs : List Nat)
    (fs : Fs) : Cramped .stackOverflow True (dropFiles forget cs fs) (dropFiles forget' cs fs) := by
  induction cs generalizing fs with
  | nil => exact .same
  | cons c cs ih =>
      cases here : fs.entryAt c with
      | none =>
          obtain ⟨error, looked⟩ := lookup_none here
          simp only [dropFiles, looked]
          exact .same
      | some e =>
          simp only [dropFiles, lookup_ok here]
          exact (drops _ c).bind fun fs₁ _ => ih fs₁

theorem forgetEntryIn_cramped {room room' : Nat} (le : room ≤ room') (fs : Fs) (i : Nat)
    (n : UInt64) :
    Cramped .stackOverflow True (forgetEntryIn room' fs i n) (forgetEntryIn room fs i n) := by
  induction room generalizing room' fs i n with
  | zero => exact .ran trivial
  | succ room ih =>
      obtain ⟨room', rfl⟩ := Nat.exists_eq_add_of_lt le
      refine Cramped.bind .same fun e _ => ?_
      refine Cramped.ite (fun _ => .same) fun _ => Cramped.ite (fun _ => .same) fun _ => ?_
      cases e.content with
      | file data => exact .same
      | dir files =>
          exact (dropFiles_cramped (fun fs i => ih (Nat.le_add_right room room') fs i 1) _ _).bind
            fun fs' _ => .same

theorem forgetEntry_cramped (fs : Fs) (i : Nat) (n : UInt64) (k : Nat) :
    Cramped .stackOverflow (fs.Deep k) (fs.forgetEntry i n) (fs.forgetEntry i n (some k)) := by
  simp only [forgetEntry, Option.getD_none, Option.getD_some]
  have short := forgetEntryIn_nested k fs i n
  rcases Nat.le_total k (fs.fileCount + 1) with less | more
  · have cramped := forgetEntryIn_cramped less fs i n
    generalize forgetEntryIn k fs i n = out at short cramped ⊢
    cases cramped with
    | same => exact .same
    | ran _ =>
        cases short with
        | overflown i c q start path long names => exact .ran ⟨i, q, c, path, long.ge⟩
        | crashed _ other => exact absurd rfl other
  · have cramped := forgetEntryIn_cramped more fs i n
    -- there cannot be more nested calls than names
    have full := forgetEntryIn_nested (fs.fileCount + 1) fs i n
    generalize forgetEntryIn (fs.fileCount + 1) fs i n = out at cramped full ⊢
    cases cramped with
    | same => exact .same
    | ran _ =>
        cases full with
        | overflown i c q start path long names => omega
        | crashed _ other => exact absurd rfl other

theorem forgetEntry_narrower (fs : Fs) (i : Nat) (n : UInt64) :
    Returns (Narrower fs) (fs.forgetEntry i n) := by
  intro fs' done
  have nested := forgetEntryIn_nested (fs.fileCount + 1) fs i n
  rw [show forgetEntryIn (fs.fileCount + 1) fs i n = .ok fs' from done] at nested
  cases nested with
  | returned _ narrower fewer => exact narrower

/-! ### The operations -/

variable {k : Nat}

theorem leaving_cramped {α : Type} (i : Nat) (r : Except IoError α × Fs)
    (narrower : Narrower fs r.2) :
    Cramped .stackOverflow (fs.Deep k) (leaving i r) (leaving i r (some k)) :=
  ((forgetEntry_cramped r.2 i 1 k).mono narrower.deep).bind fun _ _ => .same

theorem lookupAt_cramped (fs : Fs) (i : Nat) (name : OsStr) :
    Cramped .stackOverflow (fs.Deep k) (fs.lookupAt i name) (fs.lookupAt i name (some k)) := by
  cases here : fs.entryAt i with
  | none =>
      obtain ⟨error, looked⟩ := lookup_none here
      simp only [lookupAt, looked]
      exact .same
  | some e =>
      simp only [lookupAt, lookup_ok here]
      refine Cramped.ite (fun _ => .same) fun _ => Cramped.bind .same fun e' _ => ?_
      refine leaving_cramped i _ ?_
      have guarded := aside_narrower fs i addLookup fun _ => rfl
      split
      · split
        · exact guarded.trans (lookup_narrower _ _)
        split
        · exact guarded.trans (lookup_narrower _ _)
        · exact guarded
      · exact guarded

theorem forget_cramped (fs : Fs) (i : Nat) (n : UInt64) :
    Cramped .stackOverflow (fs.Deep k) (fs.forget i n) (fs.forget i n (some k)) := by
  unfold forget
  split
  · exact (forgetEntry_cramped fs i n k).bind fun _ _ => .same
  · exact .same
  · exact .same

/-- A new name may be one more in a chain. -/
theorem Linked.deep {p : Nat} {name : OsStr} {new : FsEntry} (linked : Linked fs p name i new fs')
    (holder : fs.entryAt p = some e) (dir : e.content.isDir = true) (one : new.links = 1)
    (parent : new.parent = p) (empty : ∀ name, new.content.name? name = none) {n : Nat}
    (deep : fs'.Deep n) : fs.Deep (n - 1) := by
  obtain ⟨j, q, c, path, long⟩ := deep
  rw [linked.tree holder dir one parent empty] at path
  have barren : ∀ name, fs.tree.child i name = none := by
    intro name
    rw [tree_child, linked.fresh]
    rfl
  obtain ⟨q', c', before, longer⟩ :=
    LinkTree.resolve_grow_length (Ne.symm (linked.apart holder)) barren path
  exact ⟨j, q', c', before, by omega⟩

theorem doCreate_cramped (wf : Wf fs []) (p : Nat) (name : OsStr) (mode : UInt32)
    {content : FsContent} (now : Duration) (empty : ∀ name, content.name? name = none) :
    Cramped .stackOverflow (fs.Deep (k - 1)) (fs.doCreate p name mode content now)
      (fs.doCreate p name mode content now (some k)) := by
  cases here : fs.entryAt p with
  | none =>
      obtain ⟨error, looked⟩ := lookup_none here
      simp only [doCreate, looked]
      exact .same
  | some e =>
      have guarded := aside_narrower fs p addLookup fun _ => rfl
      have nearer : fs.Deep k → fs.Deep (k - 1) := fun deep => deep.mono (Nat.sub_le k 1)
      have here₁ := entryAt_update_self here addLookup
      simp only [doCreate, lookup_ok here, deref_ok here₁, Except.ok_bind]
      cases kind : e.content with
      | file data =>
          simp only [addLookup, kind]
          exact (leaving_cramped p _ guarded).mono nearer
      | dir files =>
          simp only [addLookup, kind]
          refine Cramped.ite (fun _ => (leaving_cramped p _ guarded).mono nearer) fun free => ?_
          have dir : e.content.isDir = true := by
            rw [kind]
            rfl
          have vacant : e.content.name? name = none := by
            rw [kind, FsContent.name?_dir]
            exact Std.ExtTreeMap.getElem?_eq_none free
          obtain ⟨mid, made, _, linked⟩ :=
            link_spec (wf.update here (alike_addLookup e)) here₁ dir vacant mode now empty
          rw [show Fs.link _ p name mode content now = _ from made]
          refine (leaving_cramped p _ (.refl _)).mono fun deep => guarded.deep ?_
          exact linked.deep here₁ dir rfl rfl empty
            ((aside_narrower mid _ addLookup fun _ => rfl).deep deep)

theorem disown_narrower (fs : Fs) (p : Nat) (name : OsStr) :
    Narrower fs (fs.update p (disown name)) := by
  refine update_narrower fs p ?_
  intro e key c _ held
  cases dir : e.content with
  | file data => simp [disown, dir, FsContent.mapFiles] at held
  | dir files =>
      rw [disown_dir dir, FsContent.name?_dir, Std.ExtTreeMap.getElem?_erase] at held
      split at held
      · cases held
      · exact held

theorem unlinkIn_cramped (wf : Wf fs []) {p : Nat} (here : fs.entryAt p = some e) {files : Files}
    (dir : e.content = .dir files) (name : OsStr) (isRmdir : Bool) :
    Cramped .stackOverflow (fs.Deep k) (fs.unlinkIn p files name isRmdir)
      (fs.unlinkIn p files name isRmdir (some k)) := by
  unfold unlinkIn
  cases held : files[name]? with
  | none => exact leaving_cramped p _ (.refl fs)
  | some c =>
      have names : e.content.name? name = some c := by rw [dir, FsContent.name?_dir, held]
      obtain ⟨apart, ec, child, _, _⟩ := wf.child_entry here names
      have cut : Narrower fs ((fs.update p (disown name)).update c addLookup) :=
        (disown_narrower fs p name).trans (aside_narrower _ c addLookup fun _ => rfl)
      have looked : (fs.update p fun entry =>
          { entry with content := entry.content.mapFiles (·.erase name) }).lookup c =
            (.ok c, (fs.update p (disown name)).update c addLookup) :=
        lookup_ok ((entryAt_update_ne fs _ apart).trans child)
      simp only [looked]
      refine Cramped.bind .same fun entry _ => ?_
      cases refusal entry.content isRmdir with
      | some errno =>
          -- the name is back before anything is given up
          have restored : Narrower fs
              (((fs.update p (disown name)).update c addLookup).update p (adopt name c)) := by
            rw [adopt_restores here apart names]
            exact aside_narrower fs c addLookup fun _ => rfl
          refine Cramped.bind ((forgetEntry_cramped _ c 1 k).mono restored.deep) fun fs₁ dropped =>
            ?_
          exact leaving_cramped p _ (restored.trans (forgetEntry_narrower _ c 1 fs₁ dropped))
      | none =>
          have unlinked := cut.trans (aside_narrower _ c subLink fun _ => rfl)
          refine Cramped.bind ((forgetEntry_cramped _ c 1 k).mono unlinked.deep) fun fs₁ dropped =>
            ?_
          exact leaving_cramped p _ (unlinked.trans (forgetEntry_narrower _ c 1 fs₁ dropped))

theorem unlink_cramped (wf : Wf fs []) (p : Nat) (name : OsStr) (isRmdir : Bool) :
    Cramped .stackOverflow (fs.Deep k) (fs.unlink p name isRmdir)
      (fs.unlink p name isRmdir (some k)) := by
  cases here : fs.entryAt p with
  | none =>
      obtain ⟨error, looked⟩ := lookup_none here
      simp only [unlink, looked]
      exact .same
  | some e =>
      have guarded := aside_narrower fs p addLookup fun _ => rfl
      have here₁ := entryAt_update_self here addLookup
      simp only [unlink, lookup_ok here, deref_ok here₁, Except.ok_bind]
      cases kind : (addLookup e).content with
      | file data => exact leaving_cramped p _ guarded
      | dir files =>
          exact (unlinkIn_cramped (wf.update here (alike_addLookup e)) here₁ kind name isRmdir).mono
            guarded.deep

theorem write_cramped (fs : Fs) (depth i : Nat) (data : Bytes) (offset : Nat) :
    Cramped .stackOverflow (fs.Deep k) (fs.write depth i data offset)
      (fs.write depth i data offset (some k)) := by
  cases here : fs.entryAt i with
  | none =>
      obtain ⟨error, looked⟩ := lookup_none here
      simp only [write, looked]
      exact .same
  | some e =>
      have guarded := aside_narrower fs i addLookup fun _ => rfl
      have here₁ := entryAt_update_self here addLookup
      simp only [write, lookup_ok here, deref_ok here₁, Except.ok_bind]
      cases kind : (addLookup e).content with
      | dir files => exact leaving_cramped i _ guarded
      | file old =>
          refine Cramped.bind .same fun new _ => Cramped.bind .same fun size _ => ?_
          refine leaving_cramped i _ (guarded.trans (update_narrower _ i ?_))
          intro e' name c _ held
          cases held

theorem read_cramped (fs : Fs) (i : Nat) (data : Bytes) (offset : Nat) :
    Cramped .stackOverflow (fs.Deep k) (fs.read i data offset)
      (fs.read i data offset (some k)) := by
  cases here : fs.entryAt i with
  | none =>
      obtain ⟨error, looked⟩ := lookup_none here
      simp only [read, looked]
      exact .same
  | some e =>
      have guarded := aside_narrower fs i addLookup fun _ => rfl
      have here₁ := entryAt_update_self here addLookup
      simp only [read, lookup_ok here, deref_ok here₁, Except.ok_bind]
      cases (addLookup e).content with
      | dir files => exact leaving_cramped i _ guarded
      | file file => exact Cramped.bind .same fun got _ => leaving_cramped i _ guarded

/-! ### Listing -/

theorem listInode_cramped (fs : Fs) (r : Readdir) (name : OsStr) (i next : Nat) :
    Cramped .stackOverflow (fs.Deep k) (listInode fs r name i next)
      (listInode fs r name i next (some k)) := by
  cases here : fs.entryAt i with
  | none =>
      obtain ⟨error, looked⟩ := lookup_none here
      simp only [listInode, looked]
      exact .same
  | some e =>
      have guarded := aside_narrower fs i addLookup fun _ => rfl
      simp only [listInode, lookup_ok here]
      refine Cramped.bind .same fun entry _ => Cramped.bind .same fun state _ => ?_
      exact ((forgetEntry_cramped _ i 1 k).mono guarded.deep).bind fun _ _ => .same

theorem listInode_narrower (fs : Fs) (r : Readdir) (name : OsStr) (i next : Nat) :
    Returns (fun out => Narrower fs out.2.2) (listInode fs r name i next) := by
  cases here : fs.entryAt i with
  | none =>
      obtain ⟨error, looked⟩ := lookup_none here
      simp only [listInode, looked]
      exact Returns.pure (.refl fs)
  | some e =>
      have guarded := aside_narrower fs i addLookup fun _ => rfl
      simp only [listInode, lookup_ok here]
      refine Returns.bind fun entry _ => Returns.bind fun state _ => ?_
      refine Returns.bind fun fs' dropped => Returns.pure ?_
      exact guarded.trans (forgetEntry_narrower _ i 1 fs' dropped)

theorem listFiles_cramped (files : List (OsStr × Nat)) (next : Nat) (fs : Fs) (r : Readdir) :
    Cramped .stackOverflow (fs.Deep k) (listFiles files next fs r)
      (listFiles files next fs r (some k)) := by
  induction files generalizing next fs r with
  | nil => exact .same
  | cons x files ih =>
      refine Cramped.bind (listInode_cramped fs r x.1 x.2 (next + 1)) fun out listed => ?_
      obtain ⟨result, r', fs'⟩ := out
      have narrower : Narrower fs fs' := listInode_narrower fs r x.1 x.2 (next + 1) _ listed
      rcases result with error | _ | _
      · exact .same
      · exact (ih (next + 1) fs' r').mono narrower.deep
      · exact .same

theorem listFiles_narrower (files : List (OsStr × Nat)) (next : Nat) (fs : Fs) (r : Readdir) :
    Returns (fun out => Narrower fs out.2.2.2) (listFiles files next fs r) := by
  induction files generalizing next fs r with
  | nil => exact Returns.pure (.refl fs)
  | cons x files ih =>
      refine Returns.bind fun out listed => ?_
      obtain ⟨result, r', fs'⟩ := out
      have narrower : Narrower fs fs' := listInode_narrower fs r x.1 x.2 (next + 1) _ listed
      rcases result with error | _ | _
      · exact Returns.pure narrower
      · intro out rest
        exact narrower.trans (ih (next + 1) fs' r' out rest)
      · exact Returns.pure narrower

theorem listParent_cramped (dir : InodeLookup) (count next : Nat) (fs : Fs) (r : Readdir) :
    Cramped .stackOverflow (fs.Deep k) (listParent dir count next fs r)
      (listParent dir count next fs r (some k)) := by
  refine Cramped.ite (fun _ => Cramped.bind .same fun entry _ => ?_) fun _ => .same
  exact (listInode_cramped fs r dotdot entry.parent (next + 1)).bind fun _ _ => .same

theorem listParent_narrower (dir : InodeLookup) (count next : Nat) (fs : Fs) (r : Readdir) :
    Returns (fun out => Narrower fs out.2.2.2) (listParent dir count next fs r) := by
  refine Returns.ite (fun _ => Returns.bind fun entry _ => ?_) fun _ => Returns.pure (.refl fs)
  refine Returns.bind fun out listed => Returns.pure ?_
  exact listInode_narrower fs r dotdot entry.parent (next + 1) out listed

theorem listDir_cramped (fs : Fs) (dir : InodeLookup) (files : Files) (r : Readdir) :
    Cramped .stackOverflow (fs.Deep k) (listDir fs dir files r)
      (listDir fs dir files r (some k)) := by
  refine Cramped.bind (listFiles_cramped _ _ fs r) fun out listed => ?_
  obtain ⟨result, next, r₁, fs₁⟩ := out
  have narrower : Narrower fs fs₁ := listFiles_narrower _ _ fs r _ listed
  refine Cramped.ite (fun _ => .same) fun _ => ?_
  exact ((listParent_cramped dir files.size next fs₁ r₁).mono narrower.deep).bind fun _ _ => .same

theorem listDir_narrower (fs : Fs) (dir : InodeLookup) (files : Files) (r : Readdir) :
    Returns (fun out => Narrower fs out.2.2) (listDir fs dir files r) := by
  refine Returns.bind fun out listed => ?_
  obtain ⟨result, next, r₁, fs₁⟩ := out
  have narrower : Narrower fs fs₁ := listFiles_narrower _ _ fs r _ listed
  refine Returns.ite (fun _ => Returns.pure narrower) fun _ => Returns.bind fun out listed => ?_
  obtain ⟨result, next, r₂, fs₂⟩ := out
  have narrower₂ := narrower.trans (listParent_narrower dir files.size _ fs₁ r₁ _ listed)
  refine Returns.ite (fun _ => Returns.pure narrower₂) fun _ => ?_
  exact Returns.bind fun _ _ => Returns.pure narrower₂

theorem handleReaddir_cramped (fs : Fs) (r : Readdir) :
    Cramped .stackOverflow (fs.Deep k) (handleReaddir fs r) (handleReaddir fs r (some k)) := by
  cases here : fs.entryAt r.inode.toNat with
  | none =>
      obtain ⟨error, looked⟩ := lookup_none here
      simp only [handleReaddir, looked]
      exact .same
  | some e =>
      have guarded := aside_narrower fs r.inode.toNat addLookup fun _ => rfl
      simp only [handleReaddir, lookup_ok here]
      refine Cramped.bind .same fun entry _ => ?_
      cases entry.content with
      | file data =>
          exact ((forgetEntry_cramped _ _ 1 k).mono guarded.deep).bind fun _ _ => .same
      | dir files =>
          refine Cramped.bind ((listDir_cramped _ _ files r).mono guarded.deep) fun out listed => ?_
          have narrower := guarded.trans (listDir_narrower _ _ files r out listed)
          exact ((forgetEntry_cramped _ _ 1 k).mono narrower.deep).bind fun _ _ => .same

/-! ### One request -/

theorem Swept.narrower (swept : Swept fs fs') : Narrower fs fs' := by
  intro d name c held
  cases here : fs'.entryAt d with
  | none =>
      rw [tree_child, here] at held
      cases held
  | some e' =>
      obtain ⟨e, before, fades⟩ := swept.origin here
      rw [child_of_entry here] at held
      rw [child_of_entry before]
      cases fades with
      | same => exact held
      | unlinked _ _ => exact held

theorem Made.deep {p : Nat} {name : OsStr} {mode : UInt32} {content : FsContent} {now : Duration}
    {result : Except IoError InodeLookup} (made : Made fs p name mode content now (result, fs'))
    (empty : ∀ name, content.name? name = none) {n : Nat} (deep : fs'.Deep n) :
    fs.Deep (n - 1) := by
  cases made with
  | refused error _ taken swept => exact (swept.narrower.deep deep).mono (Nat.sub_le n 1)
  | made mid _ vacant wf linked swept =>
      obtain ⟨e, holder, dir, _⟩ := vacant
      refine linked.deep holder dir rfl rfl empty ?_
      exact (aside_narrower mid _ addLookup fun _ => rfl).deep (swept.narrower.deep deep)

theorem incrementLookup_narrower (fs : Fs) (i : Nat) :
    Returns (Narrower fs) (fs.incrementLookup i) :=
  Returns.bind fun _ _ => Returns.pure (aside_narrower fs i addLookup fun _ => rfl)

end Fs

section handlers
open Fs
variable {τ : Type} [Timeout τ] (env : Env τ) {fs : Fs} {k : Nat}

theorem create_cramped (wf : Wf fs []) (p : Nat) (name : OsStr) (mode : UInt32) (now : Duration) :
    Cramped .stackOverflow (fs.Deep (k - 1)) (fs.create p name mode now)
      (fs.create p name mode now (some k)) := by
  simp only [Fs.create, new_emptyFile, Except.ok_bind]
  exact doCreate_cramped wf p name _ now (FsContent.name?_file emptyFile)

/-- The names in a chain that so many nested calls go along: a creation adds one of them. -/
def Request.chain (r : Request) (calls : Nat) : Nat :=
  match r.creation with
  | some _ => calls - 1
  | none => calls

theorem creation_cramped (wf : Wf fs []) {r : Request} {c : Creation} (asks : r.creation = some c)
    (host : Host) :
    Cramped .stackOverflow (fs.Deep (k - 1)) (handle env fs r host)
      (handle env fs r host (some k)) := by
  have empty := FsContent.name?_file emptyFile
  cases r with
  | mkdir r =>
      refine Cramped.bind ?_ fun _ _ => .same
      exact doCreate_cramped wf _ _ _ _ fun _ => Std.ExtTreeMap.getElem?_empty
  | mknod r => exact (create_cramped wf _ _ _ _).bind fun _ _ => .same
  | create r =>
      refine (create_cramped wf _ _ _ _).bind fun out created => ?_
      obtain ⟨made, done, _, view⟩ := doCreate_spec wf r.parent.toNat r.fileName
        (r.mode ||| S_IFREG) env.now empty
      simp only [Fs.create, new_emptyFile, Except.ok_bind, done] at created
      cases created
      obtain ⟨result, mid⟩ := out
      cases result with
      | error e => exact .same
      | ok node =>
          refine Cramped.bind .same fun entry _ => ?_
          refine Cramped.bind .same fun fs₁ counted => ?_
          have narrower : Narrower mid fs₁ := by
            split at counted
            · exact incrementLookup_narrower mid node fs₁ counted
            · cases counted
              exact .refl mid
          exact ((forgetEntry_cramped _ _ 1 k).mono
            fun deep => view.deep empty (narrower.deep deep)).bind fun _ _ => .same
  | _ => cases asks

/-- No other request adds a name. -/
theorem uncreated_cramped (wf : Wf fs []) {r : Request} (none : r.creation = none) (host : Host) :
    Cramped .stackOverflow (fs.Deep k) (handle env fs r host)
      (handle env fs r host (some k)) := by
  cases r with
  | setattr r =>
      simp only [handle, handleSetattrRequest, handleSetattr]
      cases here : fs.entryAt r.inode.toNat with
      | none =>
          obtain ⟨error, looked⟩ := lookup_none here
          simp only [looked]
          exact .same
      | some e =>
          have guarded := (aside_narrower fs r.inode.toNat addLookup fun _ => rfl).trans
            (aside_narrower _ r.inode.toNat (restat r env.now) fun _ => rfl)
          simp only [lookup_ok here]
          refine Cramped.bind .same fun entry _ => ?_
          exact ((forgetEntry_cramped _ _ 1 k).mono guarded.deep).bind fun _ _ => .same
  | lookup r => exact (lookupAt_cramped fs _ r.fileName).bind fun _ _ => .same
  | forget r => exact (forget_cramped fs _ r.count).bind fun _ _ => .same
  | readdir r => exact (handleReaddir_cramped fs r).bind fun _ _ => .same
  | «open» r =>
      simp only [handle, handleOpen]
      cases here : fs.entryAt r.inode.toNat with
      | none =>
          obtain ⟨error, looked⟩ := lookup_none here
          simp only [looked]
          exact .same
      | some e =>
          have guarded := aside_narrower fs r.inode.toNat addLookup fun _ => rfl
          simp only [lookup_ok here]
          exact ((forgetEntry_cramped _ _ 1 k).mono guarded.deep).bind fun _ _ => .same
  | release r => exact (forget_cramped fs _ 1).bind fun _ _ => .same
  | unlink r => exact (unlink_cramped wf _ r.fileName false).bind fun _ _ => .same
  | rmdir r => exact (unlink_cramped wf _ r.dirName true).bind fun _ _ => .same
  | write r =>
      refine Cramped.bind .same fun data _ => ?_
      exact (write_cramped fs env.depth _ data _).bind fun _ _ => .same
  | read r => exact (read_cramped fs _ _ _).bind fun _ _ => .same
  | mkdir r => cases none
  | mknod r => cases none
  | create r => cases none
  | _ => exact .same

/-- A turn of the server that ran out of room for nested calls met a chain of names as long. -/
theorem handle_cramped (wf : Wf fs []) (r : Request) (host : Host) :
    Cramped .stackOverflow (fs.Deep (r.chain k)) (handle env fs r host)
      (handle env fs r host (some k)) := by
  cases asks : r.creation with
  | some c =>
      simp only [Request.chain, asks]
      exact creation_cramped env wf asks host
  | none =>
      simp only [Request.chain, asks]
      exact uncreated_cramped env wf asks host

end handlers
end ProxmoxFuse
