import ProxmoxFuse.Effects

/-!
# Runs of the example server

Any requests in any order, each handled with whatever clock, buffers and answers
of the kernel there are at the time. What one turn preserves is read off its
effect; what every run preserves follows by induction.
-/
namespace ProxmoxFuse
open Fs

/-- One turn of the server: a request and what its handler finds. -/
structure Visit (τ : Type) where
  env : Env τ
  request : Request
  host : Host

section runs
variable {τ : Type} [Timeout τ]

/-- The requests of a run, one after the other. -/
def Fs.serve (fs : Fs) : List (Visit τ) → Except Crash Fs
  | [] => .ok fs
  | v :: rest => do
      let out ← handle v.env fs v.request v.host
      serve out.2.1 rest

/-- The same with something noted down at every turn. -/
def Fs.noted {σ : Type} (note : Fs → Visit τ → σ → σ) (fs : Fs) (s : σ) :
    List (Visit τ) → Except Crash (Fs × σ)
  | [] => .ok (fs, s)
  | v :: rest => do
      let out ← handle v.env fs v.request v.host
      noted note out.2.1 (note fs v s) rest

theorem noted_serve {σ : Type} (note : Fs → Visit τ → σ → σ) (fs : Fs) (s : σ)
    (vs : List (Visit τ)) :
    (fs.noted note s vs).map Prod.fst = fs.serve vs := by
  induction vs generalizing fs s with
  | nil => rfl
  | cons v rest ih =>
      simp only [noted, serve]
      cases handle v.env fs v.request v.host with
      | error crash => rfl
      | ok out => exact ih out.2.1 (note fs v s)

/-- One turn that came back. -/
inductive Visited (fs : Fs) (v : Visit τ) : Fs → Prop where
  | visited (mid fs' : Fs) (r' : Request) (c : Consume τ r')
      (effect : Effect v.env fs v.host v.request mid r' c) (swept : Swept mid fs')
      (wf : Wf fs' []) : Visited fs v fs'

theorem handle_visited {fs fs' : Fs} {v : Visit τ} {result : Except ServerError Unit} {host : Host}
    (wf : Wf fs []) (handled : handle v.env fs v.request v.host = .ok (result, fs', host)) :
    Visited fs v fs' := by
  have settled : Settled v.env fs v.request v.host (handle v.env fs v.request v.host) :=
    handle_settled wf v.request
  rw [handled] at settled
  cases settled with
  | done _ mid _ r' c effect _ swept wf' => exact .visited mid fs' r' c effect swept wf'

theorem Visited.wf {fs fs' : Fs} {v : Visit τ} (visited : Visited fs v fs') : Wf fs' [] := by
  cases visited with
  | visited mid _ r' c effect swept wf => exact wf

/-- What every turn keeps, every run keeps. -/
theorem noted_induct {σ : Type} {note : Fs → Visit τ → σ → σ} {P : Fs → σ → Prop}
    (turn : ∀ fs (v : Visit τ) fs' s, Wf fs [] → P fs s → Visited fs v fs' → P fs' (note fs v s))
    {fs fs' : Fs} {s s' : σ} {vs : List (Visit τ)} (wf : Wf fs []) (start : P fs s)
    (served : fs.noted note s vs = .ok (fs', s')) : Wf fs' [] ∧ P fs' s' := by
  induction vs generalizing fs s with
  | nil =>
      cases served
      exact ⟨wf, start⟩
  | cons v rest ih =>
      simp only [noted] at served
      cases handled : handle v.env fs v.request v.host with
      | error crash =>
          rw [handled] at served
          cases served
      | ok out =>
          rw [handled] at served
          have visited := handle_visited wf handled
          exact ih visited.wf (turn fs v _ s wf start visited) served

theorem serve_induct {P : Fs → Prop}
    (turn : ∀ fs (v : Visit τ) fs', Wf fs [] → P fs → Visited fs v fs' → P fs') {fs fs' : Fs}
    {vs : List (Visit τ)} (wf : Wf fs []) (start : P fs) (served : fs.serve vs = .ok fs') :
    Wf fs' [] ∧ P fs' := by
  rw [← noted_serve (fun _ _ s => s) fs ()] at served
  cases noted : fs.noted (fun _ _ s => s) () vs with
  | error crash =>
      rw [noted] at served
      cases served
  | ok out =>
      rw [noted] at served
      cases served
      exact noted_induct (fun fs v fs' _ => turn fs v fs') wf start noted

theorem serve_wf {fs fs' : Fs} {vs : List (Visit τ)} (wf : Wf fs [])
    (served : fs.serve vs = .ok fs') : Wf fs' [] :=
  (serve_induct (P := fun _ => True) (fun _ _ _ _ _ _ => trivial) wf trivial served).1

/-! ### The new file system -/

def rootEntry (now : Duration) : FsEntry where
  inode := ROOT_ID
  parent := ROOT_ID
  lookups := 1
  links := 1
  stat := newDirStat 1 now
  content := .dir ∅

theorem new_entryAt (now : Duration) (i : Nat) :
    (Fs.new now).entryAt i = if i = ROOT_ID then some (rootEntry now) else none := by
  rcases i with _ | _ | i
  · rfl
  · rfl
  · rfl

theorem new_wf (now : Duration) : Wf (Fs.new now) [] := by
  have empty : ∀ d name, (Fs.new now).tree.child d name = none := by
    intro d name
    rw [tree_child, new_entryAt]
    split
    · exact Std.ExtTreeMap.getElem?_empty
    · rfl
  have root : (Fs.new now).tree.node ROOT_ID = some ⟨1, ROOT_ID⟩ := by
    rw [tree_node, new_entryAt, if_pos rfl]
    rfl
  constructor
  case sound =>
    constructor
    case root_node => exact ⟨ROOT_ID, root⟩
    case held =>
      intro d name c held
      rw [empty] at held
      cases held
    case once =>
      intro d name name' c held
      rw [empty] at held
      cases held
    case loose_nodup => exact List.nodup_nil
    case loose_node =>
      intro c member
      cases member
    case unheld =>
      intro c n node below
      rw [tree_node, new_entryAt, if_neg below] at node
      cases node
    case acyclic =>
      refine ⟨fun _ => 0, ?_⟩
      intro d name c held
      rw [empty] at held
      cases held
  case slots =>
    refine ⟨List.nodup_nil, ?_⟩
    intro i
    refine ⟨fun member => absurd member List.not_mem_nil, ?_⟩
    rintro ⟨low, inside, gone⟩
    have one : i = ROOT_ID := by
      have two : (Fs.new now).entries.length = 2 := rfl
      rw [two] at inside
      simp only [ROOT_ID]
      omega
    have here := new_entryAt now i
    rw [if_pos one, entryAt, gone] at here
    cases here
  case numbered =>
    intro i e here
    rw [new_entryAt] at here
    split at here
    · next same =>
        cases here
        rw [same]
        exact ⟨le_rfl, rfl, rfl⟩
    · cases here
  case root_dir =>
    intro e here
    rw [new_entryAt, if_pos rfl] at here
    cases here
    rfl

/-- Where an entry below the root is: under one name in the directory it takes for its parent,
or nowhere. -/
inductive Placed (fs : Fs) (i : Nat) (e : FsEntry) : Prop where
  | named (name : OsStr) (linked : e.links = 1) (here : fs.tree.child e.parent name = some i)
      (only : ∀ d name', fs.tree.child d name' = some i → d = e.parent ∧ name' = name) :
      Placed fs i e
  | unlinked (loose : e.links = 0) (nowhere : ∀ d name, fs.tree.child d name ≠ some i) :
      Placed fs i e

theorem Fs.Wf.placed {fs : Fs} {i : Nat} {e : FsEntry} (wf : Wf fs [])
    (here : fs.entryAt i = some e) (below : i ≠ ROOT_ID) : Placed fs i e := by
  by_cases held : ∃ d name, fs.tree.child d name = some i
  · obtain ⟨d, name, child⟩ := held
    have node := (wf.sound.held d name i child).1.node
    rw [node_of_entry here] at node
    obtain ⟨one, rfl⟩ := LinkNode.mk.inj (Option.some.inj node)
    refine .named name (UInt64.toNat_inj.mp one) child ?_
    intro d' name' child'
    exact wf.sound.holder_unique child' child
  · have nowhere : ∀ d name, fs.tree.child d name ≠ some i :=
      fun d name child => held ⟨d, name, child⟩
    have none := wf.sound.unheld i _ (node_of_entry here) below List.not_mem_nil nowhere
    exact .unlinked (UInt64.toNat_inj.mp none) nowhere

/-- After every run the entries are a tree: every entry but the root is held under one name by
its parent or has lost its name, no two paths lead to one inode, and the inodes to use again
are the empty slots, each of them once. -/
theorem runs_keep_the_tree {now : Duration} {vs : List (Visit τ)} {fs : Fs}
    (served : (Fs.new now).serve vs = .ok fs) :
    (∀ i e, fs.entryAt i = some e → i ≠ ROOT_ID → Placed fs i e) ∧
      (∀ q q' i, fs.tree.resolve ROOT_ID q = some i → fs.tree.resolve ROOT_ID q' = some i →
        q = q') ∧
      fs.freeInodes.Nodup ∧ ∀ i, i ∈ fs.freeInodes ↔ ROOT_ID ≤ i ∧ i < fs.entries.length ∧
        fs.entryAt i = none := by
  have wf := serve_wf (new_wf now) served
  refine ⟨?_, ?_, wf.slots.nodup, wf.slots.mem⟩
  · intro i e here below
    exact wf.placed here below
  · intro q q' i path path'
    exact wf.sound.path_unique path path'

/-! ### Quiet turns -/

def midnight : Duration := ⟨0, 0, by decide⟩

/-- A turn at midnight whose replies all reach the kernel. -/
def quietly (r : Request) : Visit (UInt64 × UInt32) where
  env := ⟨midnight, 8, (0, 0), ⟨fun _ => [], fun _ => 0, 0⟩⟩
  request := r
  host := ⟨fun _ => .ok, 4096, []⟩

theorem runs_keep_the_tree_mkdir :
    ∃ fs, (Fs.new midnight).serve [quietly (.mkdir ⟨⟨7⟩, 1, [97], 0⟩)] = .ok fs ∧
      ∀ e, fs.entryAt 2 = some e → Placed fs 2 e := by
  refine ⟨_, rfl, ?_⟩
  intro e here
  exact (runs_keep_the_tree
    (show (Fs.new midnight).serve [quietly (.mkdir ⟨⟨7⟩, 1, [97], 0⟩)] = _ from rfl)).1 2 e here
    (by decide)

end runs
end ProxmoxFuse
