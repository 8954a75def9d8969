import ProxmoxFuse.FsRuns

/-!
# The namespace

What the file system is for, seen from outside: a path leads to an inode, which is
a directory or a file. Creations add one path, removals take one leaf away, and
everything else, lookups, forgets and the collection of entries included, leaves
all paths alone. Every run of the server is a run of this machine.
-/
namespace ProxmoxFuse
open Fs

/-- The inode under a path, and whether it is a directory. -/
abbrev Names := List OsStr → Option (Nat × Bool)

/-- The directory and the name are there, and what the name leads to may be removed: a file
by an unlink, an empty directory by an rmdir. -/
structure Names.Removable (names : Names) (p : Nat) (name : OsStr) (isRmdir : Bool) (d : List OsStr)
    (c : Nat) : Prop where
  parent : names d = some (p, true)
  found : names (d ++ [name]) = some (c, isRmdir)
  leaf : ∀ key, names (d ++ [name] ++ [key]) = none

/-- The directory is there and the name is free. -/
structure Names.Free (names : Names) (p : Nat) (name : OsStr) (d : List OsStr) : Prop where
  parent : names d = some (p, true)
  free : names (d ++ [name]) = none

/-- One step of the namespace machine. -/
inductive NameStep (names : Names) (r : Request) : Names → Prop where
  | plant (names' : Names) (c : Creation) (d : List OsStr) (i : Nat) (asks : r.creation = some c)
      (free : names.Free c.parent c.name d) (fresh : ∀ q kind, names q ≠ some (i, kind))
      (planted : ∀ q x, names' q = some x ↔ names q = some x ∨
        (q = d ++ [c.name] ∧ x = (i, c.content.isDir))) :
      NameStep names r names'
  | pluck (names' : Names) (p : Nat) (name : OsStr) (isRmdir : Bool) (d : List OsStr) (c : Nat)
      (asks : r.removal = some (p, name, isRmdir)) (removable : names.Removable p name isRmdir d c)
      (plucked : ∀ q x, names' q = some x ↔ names q = some x ∧ q ≠ d ++ [name]) :
      NameStep names r names'
  | rest (creates : ∀ c d, r.creation = some c → ¬ names.Free c.parent c.name d)
      (removes : ∀ p name isRmdir d c, r.removal = some (p, name, isRmdir) →
        ¬ names.Removable p name isRmdir d c) : NameStep names r names

inductive NameRun : Names → List Request → Names → Prop where
  | nil (names : Names) : NameRun names [] names
  | cons {names mid names' : Names} {r : Request} {rest : List Request}
      (step : NameStep names r mid) (run : NameRun mid rest names') :
      NameRun names (r :: rest) names'

def Fs.names (fs : Fs) : Names := fun q =>
  (fs.tree.resolve ROOT_ID q).bind fun i => (fs.entryAt i).map fun e => (i, e.content.isDir)

namespace Fs
variable {fs mid fs' : Fs} {loose : List Nat} {i p : Nat} {e : FsEntry} {q : List OsStr}
  {kind : Bool}

theorem names_iff : fs.names q = some (i, kind) ↔
    fs.tree.resolve ROOT_ID q = some i ∧ ∃ e, fs.entryAt i = some e ∧ e.content.isDir = kind := by
  simp only [names, Option.bind_eq_some_iff, Option.map_eq_some_iff, Prod.mk.injEq]
  constructor
  · rintro ⟨j, path, e, here, rfl, dir⟩
    exact ⟨path, e, here, dir⟩
  · rintro ⟨path, e, here, dir⟩
    exact ⟨i, path, e, here, rfl, dir⟩

/-- What a path leads to is there. -/
theorem Wf.reached_entry (wf : Wf fs loose) (path : fs.tree.resolve ROOT_ID q = some i) :
    ∃ e, fs.entryAt i = some e := by
  have node : ∃ n, fs.tree.node i = some n := by
    rcases LinkTree.reached path with rfl | ⟨d, name, held⟩
    · obtain ⟨up, node⟩ := wf.sound.root_node
      exact ⟨_, node⟩
    · exact ⟨_, (wf.sound.held d name i held).1.node⟩
  obtain ⟨n, node⟩ := node
  rw [tree_node, Option.map_eq_some_iff] at node
  obtain ⟨e, here, _⟩ := node
  exact ⟨e, here⟩

theorem Wf.names_none (wf : Wf fs loose) :
    fs.names q = none ↔ fs.tree.resolve ROOT_ID q = none := by
  constructor
  · intro none
    by_contra path
    obtain ⟨i, path⟩ := Option.ne_none_iff_exists'.mp path
    obtain ⟨e, here⟩ := wf.reached_entry path
    have some := names_iff.mpr ⟨path, e, here, rfl⟩
    rw [none] at some
    cases some
  · intro none
    rw [names, none]
    rfl

/-- Paths decide where the kinds stay. -/
theorem names_of_paths (paths : ∀ q, fs'.tree.resolve ROOT_ID q = fs.tree.resolve ROOT_ID q)
    (kinds : ∀ q i, fs.tree.resolve ROOT_ID q = some i →
      (fs'.entryAt i).map (·.content.isDir) = (fs.entryAt i).map (·.content.isDir)) : fs'.names =
        fs.names := by
  funext q
  simp only [names, paths]
  cases path : fs.tree.resolve ROOT_ID q with
  | none => rfl
  | some i =>
      have kind := kinds q i path
      simp only [Option.bind_some]
      cases before : fs.entryAt i <;> cases after : fs'.entryAt i <;> simp_all

theorem Swept.names (swept : Swept mid fs') (wf : Wf fs' loose) : fs'.names = mid.names := by
  refine names_of_paths swept.paths ?_
  intro q i path
  obtain ⟨e', there⟩ := wf.reached_entry ((swept.paths q).trans path)
  obtain ⟨e, here, _⟩ := swept.origin there
  rw [swept.reached wf path here, here]

theorem names_update_alike (here : fs.entryAt i = some e) {f : FsEntry → FsEntry}
    (alike : Alike e (f e)) :
    (fs.update i f).names = fs.names := by
  refine names_of_paths ?_ ?_
  · intro q
    rw [tree_update here alike]
  · intro q j _
    rw [entryAt_update]
    split
    · next same =>
        subst same
        rw [here]
        simp [alike.isDir]
    · rfl

/-! ### Creations -/

variable {name : OsStr} {new : FsEntry}

theorem Linked.isDir (linked : Linked fs p name i new fs') {j : Nat} (other : j ≠ i) :
    (fs'.entryAt j).map (·.content.isDir) = (fs.entryAt j).map (·.content.isDir) := by
  rw [linked.entries, if_neg other]
  split
  · simp [Function.comp_def, adopt_isDir]
  · rfl

theorem Linked.names (linked : Linked fs p name i new fs') (wf : Wf fs loose)
    (holder : fs.entryAt p = some e) (dir : e.content.isDir = true)
    (free : e.content.name? name = none) (one : new.links = 1) (parent : new.parent = p)
    (empty : ∀ key, new.content.name? key = none) (q : List OsStr) (x : Nat × Bool) :
    fs'.names q = some x ↔ fs.names q = some x ∨
      (x = (i, new.content.isDir) ∧ ∃ d, q = d ++ [name] ∧ fs.tree.resolve ROOT_ID d = some p) := by
  obtain ⟨j, kind⟩ := x
  have unused : ∀ q, fs.tree.resolve ROOT_ID q ≠ some i := by
    intro q path
    obtain ⟨e, here⟩ := wf.reached_entry path
    rw [linked.fresh] at here
    cases here
  rw [names_iff, names_iff, linked.tree holder dir one parent empty,
    wf.sound.resolve_grow (node_of_entry holder) ((child_of_entry holder name).trans free)
      (by rw [tree_node, linked.fresh]; rfl)]
  constructor
  · rintro ⟨path | ⟨rfl, d, rfl, path⟩, e', there, rfl⟩
    · have other : j ≠ i := fun same => unused q (same ▸ path)
      have same := linked.isDir other
      rw [there] at same
      obtain ⟨e₀, here, equal⟩ := Option.map_eq_some_iff.mp same.symm
      exact .inl ⟨path, e₀, here, equal⟩
    · rw [linked.new] at there
      cases there
      exact .inr ⟨rfl, d, rfl, path⟩
  · rintro (⟨path, e₀, here, rfl⟩ | ⟨same, d, rfl, path⟩)
    · have other : j ≠ i := fun same => unused q (same ▸ path)
      have same := linked.isDir other
      rw [here] at same
      obtain ⟨e', there, equal⟩ := Option.map_eq_some_iff.mp same
      exact ⟨.inl path, e', there, equal⟩
    · cases same
      exact ⟨.inr ⟨rfl, d, rfl, path⟩, new, linked.new, rfl⟩

/-! ### Removals -/

theorem removable_iff {isRmdir : Bool} {c : Nat} : fs.removable p name isRmdir = some c ↔
    ∃ e e', fs.entryAt p = some e ∧ e.content.name? name = some c ∧ fs.entryAt c = some e' ∧
      refusal e'.content isRmdir = none := by
  simp only [removable, Option.filter_eq_some_iff, Option.bind_eq_some_iff, Option.any_eq_true,
    Option.isNone_iff_eq_none]
  constructor
  · rintro ⟨⟨e, here, held⟩, e', there, allowed⟩
    exact ⟨e, e', here, held, there, allowed⟩
  · rintro ⟨e, e', here, held, there, allowed⟩
    exact ⟨⟨e, here, held⟩, e', there, allowed⟩

theorem refusal_kind {content : FsContent} {isRmdir : Bool}
    (allowed : refusal content isRmdir = none) :
    content.isDir = isRmdir := by
  cases content with
  | file data =>
      cases isRmdir with
      | false => rfl
      | true => cases allowed
  | dir files =>
      cases isRmdir with
      | false => cases allowed
      | true => rfl

theorem refusal_none {content : FsContent} {isRmdir : Bool} (kind : content.isDir = isRmdir)
    (leaf : ∀ key, content.name? key = none) : refusal content isRmdir = none := by
  cases content with
  | file data =>
      rw [← kind]
      rfl
  | dir files =>
      have empty : files.isEmpty = true := by
        rw [Std.ExtTreeMap.isEmpty_iff]
        apply Std.ExtTreeMap.ext_getElem?
        intro key
        rw [Std.ExtTreeMap.getElem?_empty]
        exact leaf key
      rw [← kind]
      simp [refusal, FsContent.isDir, empty]

theorem removed_paths (wf : Wf fs loose) (holder : fs.entryAt p = some e) {c : Nat}
    (held : e.content.name? name = some c) {ec : FsEntry} (there : fs.entryAt c = some ec)
    (leaf : ∀ key, ec.content.name? key = none) (q : List OsStr) (j : Nat) :
    ((fs.update p (disown name)).update c subLink).tree.resolve ROOT_ID q = some j ↔
      fs.tree.resolve ROOT_ID q = some j ∧ j ≠ c := by
  obtain ⟨files, dir⟩ : ∃ files, e.content = .dir files := by
    cases content : e.content with
    | file data =>
        rw [content] at held
        cases held
    | dir files => exact ⟨files, rfl⟩
  have apart := (wf.child_entry holder held).1
  have there' : (fs.update p (disown name)).entryAt c = some ec :=
    (entryAt_update_ne fs _ apart).trans there
  have cut : (fs.update p (disown name)).tree = fs.tree.cut p (· = name) := by
    refine tree_cut holder (disown_dir dir name) (· = name) fun key => ?_
    rw [dir, FsContent.name?_dir, Std.ExtTreeMap.getElem?_erase]
    by_cases same : key = name
    · simp [same]
    · simp [same, Ne.symm same]
  rw [names_update there' (fun _ => rfl) q, cut]
  refine wf.sound.resolve_cut_leaf ((child_of_entry holder name).trans held) (fun key => ?_) q j
  rw [child_of_entry there, leaf]

theorem removed_isDir (fs : Fs) (p : Nat) (name : OsStr) (c j : Nat) :
    (((fs.update p (disown name)).update c subLink).entryAt j).map (·.content.isDir) =
      (fs.entryAt j).map (·.content.isDir) := by
  have kept : ∀ e : FsEntry, (disown name e).content.isDir = e.content.isDir := by
    intro e
    cases content : e.content with
    | file data => simp [disown, content, FsContent.mapFiles]
    | dir files => simp [disown, content, FsContent.mapFiles, FsContent.isDir]
  rw [entryAt_update, entryAt_update]
  split
  · split
    · cases fs.entryAt j <;> simp [subLink, kept]
    · cases fs.entryAt j <;> simp [subLink]
  · split
    · cases fs.entryAt j <;> simp [kept]
    · rfl

theorem removed_names (wf : Wf fs loose) (holder : fs.entryAt p = some e) {c : Nat}
    (held : e.content.name? name = some c) {ec : FsEntry} (there : fs.entryAt c = some ec)
    (leaf : ∀ key, ec.content.name? key = none) (q : List OsStr) (x : Nat × Bool) :
    ((fs.update p (disown name)).update c subLink).names q = some x ↔ fs.names q = some x ∧
      x.1 ≠ c := by
  obtain ⟨j, kind⟩ := x
  have same := removed_isDir fs p name c j
  rw [names_iff, names_iff, removed_paths wf holder held there leaf]
  constructor
  · rintro ⟨⟨path, other⟩, e', after, rfl⟩
    rw [after] at same
    obtain ⟨e₀, before, equal⟩ := Option.map_eq_some_iff.mp same.symm
    exact ⟨⟨path, e₀, before, equal⟩, other⟩
  · rintro ⟨⟨path, e₀, before, rfl⟩, other⟩
    rw [before] at same
    obtain ⟨e', after, equal⟩ := Option.map_eq_some_iff.mp same
    exact ⟨⟨path, other⟩, e', after, equal⟩

/-! ### The simulation -/

/-- What the namespace sees of a directory that can take a name. -/
theorem Wf.vacant (wf : Wf fs loose) {d : List OsStr} (free : fs.names.Free p name d) :
    fs.Vacant p name := by
  obtain ⟨path, e, here, dir⟩ := names_iff.mp free.parent
  refine ⟨e, here, dir, ?_⟩
  rw [← child_of_entry here]
  have none := wf.names_none.mp free.free
  rwa [LinkTree.resolve_snoc, path] at none

theorem Wf.removable (wf : Wf fs loose) {isRmdir : Bool} {d : List OsStr} {c : Nat}
    (removable : fs.names.Removable p name isRmdir d c) : fs.removable p name isRmdir = some c := by
  obtain ⟨path, e, here, dir⟩ := names_iff.mp removable.parent
  obtain ⟨path', e', there, kind⟩ := names_iff.mp removable.found
  refine removable_iff.mpr ⟨e, e', here, ?_, there, refusal_none kind fun key => ?_⟩
  · rw [← child_of_entry here]
    rwa [LinkTree.resolve_snoc, path] at path'
  · rw [← child_of_entry there]
    have none := wf.names_none.mp (removable.leaf key)
    rwa [LinkTree.resolve_snoc, path'] at none

end Fs

section simulation
variable {τ : Type} [Timeout τ] {fs mid fs' : Fs} {v : Visit τ}

/-- A turn that neither creates nor removes. -/
theorem NameStep.idle {names : Names} {r : Request} (creation : r.creation = none)
    (removal : r.removal = none) :
    NameStep names r names := by
  refine .rest ?_ ?_
  · intro c d asks
    rw [creation] at asks
    cases asks
  · intro p name isRmdir d c asks
    rw [removal] at asks
    cases asks

theorem creation_leaf {r : Request} {c : Creation} (asks : r.creation = some c) (key : OsStr) :
    c.content.name? key = none := by
  cases r with
  | mkdir r =>
      cases asks
      exact Std.ExtTreeMap.getElem?_empty
  | mknod r =>
      cases asks
      rfl
  | create r =>
      cases asks
      rfl
  | _ => cases asks

theorem made_step (wf : Wf fs []) {r : Request} {c : Creation} {i : Nat} {now : Duration}
    (asks : r.creation = some c) (vacant : fs.Vacant c.parent c.name)
    (linked : Linked fs c.parent c.name i (born i c.parent c.mode c.content now) mid) :
    NameStep fs.names r mid.names := by
  obtain ⟨e, holder, dir, free⟩ := vacant
  have names := linked.names wf holder dir free rfl rfl (creation_leaf asks)
  by_cases reached : ∃ d, fs.tree.resolve ROOT_ID d = some c.parent
  · obtain ⟨d, path⟩ := reached
    refine .plant _ c d i asks ⟨names_iff.mpr ⟨path, e, holder, dir⟩, ?_⟩ ?_ ?_
    · rw [wf.names_none, LinkTree.resolve_snoc, path]
      exact (child_of_entry holder c.name).trans free
    · intro q kind there
      obtain ⟨_, e', here, _⟩ := names_iff.mp there
      rw [linked.fresh] at here
      cases here
    · intro q x
      rw [names q x]
      refine or_congr_right ?_
      constructor
      · rintro ⟨same, d', rfl, path'⟩
        rw [wf.sound.path_unique path' path]
        exact ⟨rfl, same⟩
      · rintro ⟨rfl, same⟩
        exact ⟨same, d, rfl, path⟩
  · -- a directory without a path: nothing to see from the root
    have same : mid.names = fs.names := by
      funext q
      refine Option.ext fun x => ?_
      rw [names q x]
      refine or_iff_left ?_
      rintro ⟨_, d, _, path⟩
      exact reached ⟨d, path⟩
    rw [same]
    refine .rest ?_ ?_
    · intro c' d asks' free'
      cases asks.symm.trans asks'
      exact reached ⟨d, (names_iff.mp free'.parent).1⟩
    · intro p name isRmdir d k asks'
      cases asks'.symm.trans (creation_kind fs asks).2.2

theorem removed_step (wf : Wf fs []) {r : Request} {p : Nat} {name : OsStr} {isRmdir : Bool}
    {c : Nat} (asks : r.removal = some (p, name, isRmdir))
    (allowed : fs.removable p name isRmdir = some c) :
    NameStep fs.names r ((fs.update p (disown name)).update c subLink).names := by
  obtain ⟨e, ec, holder, held, there, permits⟩ := removable_iff.mp allowed
  have leaf := refusal_leaf permits
  have names := removed_names wf holder held there leaf
  have dir : e.content.isDir = true := by
    cases content : e.content with
    | file data =>
        rw [content] at held
        cases held
    | dir files => rfl
  by_cases reached : ∃ d, fs.tree.resolve ROOT_ID d = some p
  · obtain ⟨d, path⟩ := reached
    have below : fs.tree.resolve ROOT_ID (d ++ [name]) = some c := by
      rw [LinkTree.resolve_snoc, path]
      exact (child_of_entry holder name).trans held
    refine .pluck _ p name isRmdir d c asks ⟨?_, ?_, ?_⟩ ?_
    · exact names_iff.mpr ⟨path, e, holder, dir⟩
    · exact names_iff.mpr ⟨below, ec, there, refusal_kind permits⟩
    · intro key
      rw [wf.names_none, LinkTree.resolve_snoc, below]
      exact (child_of_entry there key).trans (leaf key)
    · intro q x
      rw [names q x]
      refine and_congr_right fun here => not_congr ?_
      obtain ⟨path', _⟩ := names_iff.mp (show fs.names q = some (x.1, x.2) from here)
      constructor
      · intro same
        rw [same] at path'
        exact wf.sound.path_unique path' below
      · rintro rfl
        exact Option.some.inj (path'.symm.trans below)
  · have same : ((fs.update p (disown name)).update c subLink).names = fs.names := by
      funext q
      refine Option.ext fun x => ?_
      rw [names q x]
      refine and_iff_left_of_imp fun here => ?_
      rintro rfl
      obtain ⟨path, _⟩ := names_iff.mp (show fs.names q = some (x.1, x.2) from here)
      obtain ⟨d, _, above⟩ := wf.sound.holder_reached ((child_of_entry holder name).trans held) path
      exact reached ⟨d, above⟩
    rw [same]
    refine .rest ?_ ?_
    · intro c' d asks'
      cases asks'.symm.trans (removal_kind fs asks).2.2
    · intro p' name' isRmdir' d k asks' removable
      cases asks.symm.trans asks'
      exact reached ⟨d, (names_iff.mp removable.parent).1⟩

/-- A forget takes no path away. -/
theorem Fs.Forgotten.names {i : Nat} {e : FsEntry} {n : UInt64} (forgotten : Forgotten fs i e n mid)
    (wf : Wf fs []) (here : fs.entryAt i = some e) (swept : Swept mid fs') (wf' : Wf fs' []) :
    fs'.names = fs.names := by
  cases forgotten with
  | kept why => exact (swept.names wf').trans (names_update_alike here (alike_subLookups n e))
  | deleted _ last unlinked gone stays away paths files =>
      refine names_of_paths (fun q => (swept.paths q).trans (paths q)) ?_
      intro q j path
      obtain ⟨e', there⟩ := wf'.reached_entry ((swept.paths q).trans ((paths q).trans path))
      obtain ⟨e₁, between, fades⟩ := swept.origin there
      obtain ⟨e₀, before⟩ := wf.reached_entry path
      have other : j ≠ i := by
        rintro rfl
        rw [gone] at between
        cases between
      have first := (stays j e₀ other before).fades
      rw [between] at first
      rw [there, before, (first.trans fades).kept]
      rfl

/-- One turn of the server is one step of the namespace. -/
theorem Visited.names (visited : Visited fs v fs') (wf : Wf fs []) :
    NameStep fs.names v.request fs'.names := by
  obtain ⟨env, request, host⟩ := v
  obtain ⟨mid, _, r', c, effect, swept, wf'⟩ := visited
  have collected := swept.names wf'
  cases effect with
  | shown _ t e shows here =>
      rw [collected, names_update_alike here (alike_addLookup e)]
      exact .idle (shows_kind shows).2.1 (shows_kind shows).2.2
  | restated r e here =>
      rw [collected, names_update_alike here (alike_restat r env.now e)]
      exact .idle rfl rfl
  | forgot _ j n e _ asks here forgotten =>
      rw [forgotten.names wf here swept wf']
      exact .idle (forgetting_kind fs asks).2.1 (forgetting_kind fs asks).2.2
  | forgotNothing r gone =>
      rw [collected]
      exact .idle rfl rfl
  | made _ c mid₀ asks vacant wfMid linked taken =>
      rw [collected, names_update_alike linked.new (alike_addLookup _)]
      exact made_step wf asks vacant linked
  | madeUntaken _ c _ asks vacant wfMid linked untaken =>
      rw [collected]
      exact made_step wf asks vacant linked
  | removed _ p name isRmdir c _ asks allowed removed ends =>
      rw [(removed.trans swept).names wf']
      exact removed_step wf asks allowed
  | opened r e here =>
      rw [collected]
      exact .idle rfl rfl
  | wrote r data e old new size given here kind written sized =>
      rw [collected, names_update_alike here (alike_stored kind new size)]
      exact .idle rfl rfl
  | gave r e file got buf here kind done =>
      rw [collected]
      exact .idle rfl rfl
  | listed r r' e files state stop here dir added =>
      rw [collected]
      exact .idle rfl rfl
  | refused _ r' error why =>
      rw [collected]
      refine .rest ?_ ?_
      · intro c d asks free
        exact why.creates c asks (wf.vacant free)
      · intro p name isRmdir d c asks removable
        have some := wf.removable removable
        rw [why.removes p name isRmdir asks] at some
        cases some
  | unknown _ other =>
      rw [collected]
      exact .idle (unhandled_kind fs other).2.2.1 (unhandled_kind fs other).2.2.2

theorem serve_names {vs : List (Visit τ)} (wf : Wf fs []) (served : fs.serve vs = .ok fs') :
    NameRun fs.names (vs.map (·.request)) fs'.names := by
  induction vs generalizing fs with
  | nil =>
      cases served
      exact .nil _
  | cons v rest ih =>
      simp only [Fs.serve] at served
      cases handled : handle v.env fs v.request v.host with
      | error crash =>
          rw [handled] at served
          cases served
      | ok out =>
          rw [handled] at served
          have visited := handle_visited wf handled
          exact .cons (visited.names wf) (ih visited.wf served)

/-- The namespace with nothing but its root. -/
def rootOnly : Names
  | [] => some (ROOT_ID, true)
  | _ :: _ => none

theorem new_names (now : Duration) : (Fs.new now).names = rootOnly := by
  funext q
  cases q with
  | nil => rfl
  | cons key rest =>
      refine (new_wf now).names_none.mpr ?_
      have empty : (Fs.new now).tree.child ROOT_ID key = none := by
        rw [tree_child, new_entryAt, if_pos rfl]
        exact Std.ExtTreeMap.getElem?_empty
      simp only [LinkTree.resolve, empty, Option.bind_none]

/-- Every run of the server that comes back is a run of the namespace machine over the same
requests: a path appears where a request creates it, goes where a request removes it, and
nothing else that the server does, collecting entries included, shows. -/
theorem server_refines_namespace (now : Duration) (vs : List (Visit τ))
    (served : (Fs.new now).serve vs = .ok fs') :
    NameRun rootOnly (vs.map (·.request)) fs'.names := by
  rw [← new_names now]
  exact serve_names (new_wf now) served

theorem server_refines_namespace_mkdir :
    ∃ fs, (Fs.new midnight).serve [quietly (.mkdir ⟨⟨7⟩, 1, [97], 0⟩)] = .ok fs ∧
      NameRun rootOnly [.mkdir ⟨⟨7⟩, 1, [97], 0⟩] fs.names :=
  ⟨_, rfl, server_refines_namespace midnight [quietly (.mkdir ⟨⟨7⟩, 1, [97], 0⟩)] rfl⟩

end simulation
end ProxmoxFuse
