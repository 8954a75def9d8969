import ProxmoxFuse.LinkTree
import ProxmoxFuse.Returns
import ProxmoxFuse.Tmpfs

/-!
# The entries as a tree

The table of entries seen as a tree kept by link counts, and the invariant of the
file system: a sound tree, a free list of exactly the empty slots, and entries
that know their own number. Every change to the table is one of the operations of
the tree, or leaves the tree alone.
-/
namespace ProxmoxFuse
open LinkTree (Sound)

def FsContent.name? (content : FsContent) (name : OsStr) : Option Nat :=
  match content with
  | .dir files => files[name]?
  | .file _ => none

@[simp] theorem FsContent.name?_dir (files : Files) (name : OsStr) :
    (FsContent.dir files).name? name = files[name]? :=
  rfl

@[simp] theorem FsContent.name?_file (data : BlockFile) (name : OsStr) :
    (FsContent.file data).name? name = none := rfl

def FsContent.isDir : FsContent → Bool
  | .dir _ => true
  | .file _ => false

namespace Fs

def tree (fs : Fs) : LinkTree Nat OsStr where
  node i := (fs.entryAt i).map fun e => ⟨e.links.toNat, e.parent⟩
  child d name := (fs.entryAt d).bind (·.content.name? name)

theorem tree_node (fs : Fs) (i : Nat) :
    fs.tree.node i = (fs.entryAt i).map fun e => ⟨e.links.toNat, e.parent⟩ := rfl

theorem tree_child (fs : Fs) (d : Nat) (name : OsStr) :
    fs.tree.child d name = (fs.entryAt d).bind (·.content.name? name) := rfl

/-- The invariant between requests, when nothing is loose, and within them. -/
structure Wf (fs : Fs) (loose : List Nat) : Prop where
  sound : Sound fs.tree ROOT_ID loose
  slots : Slots.Free 1 fs.entries fs.freeInodes
  numbered : ∀ i e, fs.entryAt i = some e → 1 ≤ i ∧ e.inode = i ∧ e.stat.stIno = UInt64.ofNat i
  root_dir : ∀ e, fs.entryAt ROOT_ID = some e → e.content.isDir = true

variable {fs fs' : Fs} {loose : List Nat} {i j : Nat} {e e' : FsEntry}

/-! ### Entries under updates -/

theorem entryAt_update (fs : Fs) (i j : Nat) (f : FsEntry → FsEntry) :
    (fs.update i f).entryAt j = if i = j then (fs.entryAt j).map f else fs.entryAt j :=
  Slots.get?_update fs.entries i j f

theorem entryAt_update_self (here : fs.entryAt i = some e) (f : FsEntry → FsEntry) :
    (fs.update i f).entryAt i = some (f e) := by
  rw [entryAt_update, if_pos rfl, here]
  rfl

theorem entryAt_update_ne (fs : Fs) (f : FsEntry → FsEntry) (ne : i ≠ j) :
    (fs.update i f).entryAt j = fs.entryAt j := by
  rw [entryAt_update, if_neg ne]

theorem entryAt_lt (here : fs.entryAt i = some e) : i < fs.entries.length := Slots.lt_of_get? here

theorem update_update (fs : Fs) (i : Nat) (f g : FsEntry → FsEntry) :
    (fs.update i f).update i g = fs.update i (g ∘ f) := by
  simp only [update, Slots.update_update]

theorem update_comm (fs : Fs) (ne : i ≠ j) (f g : FsEntry → FsEntry) :
    (fs.update i f).update j g = (fs.update j g).update i f := by
  simp only [update, Slots.update_comm fs.entries ne]

theorem update_id (here : fs.entryAt i = some e) {f : FsEntry → FsEntry} (same : f e = e) :
    fs.update i f = fs := by
  simp only [update, Slots.update_id here same]

theorem deref_ok (here : fs.entryAt i = some e) : fs.deref i = .ok e := by
  rw [deref, here]

theorem lookup_ok (here : fs.entryAt i = some e) :
    fs.lookup i = (.ok i, fs.update i addLookup) := by
  rw [lookup, Slots.getElem?_of_get? here]

/-- A lookup of what is not there changes nothing. -/
theorem lookup_none (gone : fs.entryAt i = none) : ∃ error, fs.lookup i = (.error error, fs) := by
  rw [entryAt, Slots.get?] at gone
  unfold lookup
  split
  · next found => rw [found] at gone; cases gone
  · exact ⟨_, rfl⟩
  · exact ⟨_, rfl⟩

/-- What an update that leaves the tree alone keeps of an entry. -/
structure Alike (e e' : FsEntry) : Prop where
  inode : e'.inode = e.inode
  parent : e'.parent = e.parent
  links : e'.links = e.links
  ino : e'.stat.stIno = e.stat.stIno
  names : ∀ name, e'.content.name? name = e.content.name? name
  isDir : e'.content.isDir = e.content.isDir

theorem tree_ext {t : LinkTree Nat OsStr} (nodes : ∀ i, fs.tree.node i = t.node i)
    (children : ∀ d name, fs.tree.child d name = t.child d name) : fs.tree = t := by
  calc fs.tree = ⟨fs.tree.node, fs.tree.child⟩ := rfl
    _ = ⟨t.node, t.child⟩ := by rw [funext nodes, funext fun d => funext (children d)]

theorem node_update (here : fs.entryAt i = some e) (f : FsEntry → FsEntry) (j : Nat) :
    (fs.update i f).tree.node j = if i = j then some ⟨(f e).links.toNat, (f e).parent⟩
      else fs.tree.node j := by
  split
  · next same =>
      subst same
      rw [tree_node, entryAt_update_self here]
      rfl
  · next ne => rw [tree_node, entryAt_update_ne fs f ne, tree_node]

theorem child_update (here : fs.entryAt i = some e) (f : FsEntry → FsEntry) (d : Nat)
    (name : OsStr) :
    (fs.update i f).tree.child d name = if i = d then (f e).content.name? name
      else fs.tree.child d name := by
  split
  · next same =>
      subst same
      rw [tree_child, entryAt_update_self here]
      rfl
  · next ne => rw [tree_child, entryAt_update_ne fs f ne, tree_child]

theorem node_of_entry (here : fs.entryAt i = some e) :
    fs.tree.node i = some ⟨e.links.toNat, e.parent⟩ := by
  rw [tree_node, here]
  rfl

theorem child_of_entry (here : fs.entryAt i = some e) (name : OsStr) :
    fs.tree.child i name = e.content.name? name := by
  rw [tree_child, here]
  rfl

/-- An update keeps the invariant if it keeps the tree sound and the entry's numbers and kind. -/
theorem Wf.of_update (wf : Wf fs loose) (here : fs.entryAt i = some e) {f : FsEntry → FsEntry}
    {loose' : List Nat} (sound : Sound (fs.update i f).tree ROOT_ID loose')
    (inode : (f e).inode = e.inode) (ino : (f e).stat.stIno = e.stat.stIno)
    (isDir : (f e).content.isDir = e.content.isDir) :
    Wf (fs.update i f) loose' where
  sound := sound
  slots := wf.slots.update i f
  numbered j e' found := by
    rw [entryAt_update] at found
    split at found
    · next same =>
        subst same
        rw [here] at found
        cases found
        rw [inode, ino]
        exact wf.numbered i e here
    · exact wf.numbered j e' found
  root_dir e' found := by
    rw [entryAt_update] at found
    split at found
    · next same =>
        subst same
        rw [here] at found
        cases found
        rw [isDir]
        exact wf.root_dir e here
    · exact wf.root_dir e' found

theorem tree_update (here : fs.entryAt i = some e) {f : FsEntry → FsEntry} (alike : Alike e (f e)) :
    (fs.update i f).tree = fs.tree := by
  apply tree_ext
  · intro j
    rw [node_update here, alike.links, alike.parent, ← node_of_entry here]
    split
    · next same => rw [same]
    · rfl
  · intro d name
    rw [child_update here, alike.names, ← child_of_entry here]
    split
    · next same => rw [same]
    · rfl

theorem Wf.update (wf : Wf fs loose) (here : fs.entryAt i = some e) {f : FsEntry → FsEntry}
    (alike : Alike e (f e)) :
    Wf (fs.update i f) loose := by
  refine wf.of_update here ?_ alike.inode alike.ino alike.isDir
  rw [tree_update here alike]
  exact wf.sound

theorem alike_addLookup (e : FsEntry) : Alike e (addLookup e) :=
  ⟨rfl, rfl, rfl, rfl, fun _ => rfl, rfl⟩

/-! ### What changes the tree -/

/-- Names taken out of a directory. -/
theorem tree_cut (here : fs.entryAt i = some e) {f : FsEntry → FsEntry} {files : Files}
    (rewritten : f e = { e with content := .dir files }) (p : OsStr → Prop) [DecidablePred p]
    (left : ∀ name, files[name]? = if p name then none else e.content.name? name) :
    (fs.update i f).tree = fs.tree.cut i p := by
  apply tree_ext
  · intro j
    rw [node_update here, rewritten]
    split
    · next same =>
        subst same
        exact (node_of_entry here).symm
    · rfl
  · intro d name
    rw [child_update here, rewritten]
    simp only [LinkTree.cut]
    split
    · next same =>
        subst same
        rw [child_of_entry here]
        simpa using left name
    · next ne => simp [Ne.symm ne]

theorem Wf.cut (wf : Wf fs loose) (here : fs.entryAt i = some e) (dir : e.content.isDir = true)
    {f : FsEntry → FsEntry} {files : Files} (rewritten : f e = { e with content := .dir files })
    (p : OsStr → Prop) [DecidablePred p]
    (left : ∀ name, files[name]? = if p name then none else e.content.name? name) {cs : List Nat}
    (nodup : cs.Nodup) (taken : ∀ c, c ∈ cs ↔ ∃ name, p name ∧ e.content.name? name = some c) :
    Wf (fs.update i f) (cs ++ loose) := by
  refine wf.of_update here ?_ ?_ ?_ ?_
  · rw [tree_cut here rewritten p left]
    refine wf.sound.cut i p nodup fun c => ?_
    simp only [taken, child_of_entry here]
  · rw [rewritten]
  · rw [rewritten]
  · rw [rewritten, dir]
    rfl

/-- The entry of a loose inode. -/
theorem Wf.loose_entry (wf : Wf fs loose) (member : i ∈ loose) :
    ∃ e, fs.entryAt i = some e ∧ e.links = 1 := by
  obtain ⟨_, up, node⟩ := wf.sound.loose_node i member
  simp only [tree_node, Option.map_eq_some_iff] at node
  obtain ⟨e, here, same⟩ := node
  refine ⟨e, here, UInt64.toNat.inj ?_⟩
  exact congrArg LinkNode.links same

theorem Wf.subLink {c : Nat} (wf : Wf fs (c :: loose)) : Wf (fs.update c subLink) loose := by
  obtain ⟨e, here, one⟩ := wf.loose_entry List.mem_cons_self
  have lowered : (Fs.subLink e).links.toNat = e.links.toNat - 1 := by
    rw [Fs.subLink, one]
    rfl
  refine wf.of_update here ?_ rfl rfl rfl
  have same : (fs.update c Fs.subLink).tree = fs.tree.dropLink c := by
    apply tree_ext
    · intro j
      rw [node_update here, lowered]
      simp only [LinkTree.dropLink, node_of_entry here, eq_comm]
      rfl
    · intro d name
      rw [child_update here]
      split
      · next same =>
          subst same
          exact (child_of_entry here name).symm
      · rfl
  rw [same]
  exact wf.sound.dropLink

/-- Empty a slot and free its number. -/
def delete (fs : Fs) (i : Nat) : Fs :=
  { entries := fs.entries.set i none, freeInodes := i :: fs.freeInodes }

theorem entryAt_delete (here : fs.entryAt i = some e) (j : Nat) :
    (fs.delete i).entryAt j = if i = j then none else fs.entryAt j :=
  Slots.get?_set (entryAt_lt here) none j

theorem tree_delete (here : fs.entryAt i = some e) (empty : ∀ name, e.content.name? name = none) :
    (fs.delete i).tree = fs.tree.remove i := by
  apply tree_ext
  · intro j
    by_cases same : i = j
    · subst same
      simp only [tree_node, LinkTree.remove, entryAt_delete here, if_true]
      rfl
    · simp only [tree_node, LinkTree.remove, entryAt_delete here, same, Ne.symm same, if_false]
  · intro d name
    by_cases same : i = d
    · subst same
      simp only [tree_node, tree_child, LinkTree.remove, entryAt_delete here, here, if_true,
        Option.bind_some, empty]
      rfl
    · simp only [tree_node, tree_child, LinkTree.remove, entryAt_delete here, same, if_false]

theorem Wf.node_zero (here : fs.entryAt i = some e) (zero : e.links = 0) :
    fs.tree.node i = some ⟨0, e.parent⟩ := by
  simp only [tree_node, here, Option.map_some, zero]
  rfl

theorem Wf.delete (wf : Wf fs loose) (here : fs.entryAt i = some e) (zero : e.links = 0)
    (empty : ∀ name, e.content.name? name = none) : Wf (fs.delete i) loose where
  sound := by
    rw [tree_delete here empty]
    refine wf.sound.remove (Wf.node_zero here zero) fun name => ?_
    simp only [tree_child, here, Option.bind_some, empty]
  slots := wf.slots.release here (wf.numbered i e here).1
  numbered j e' found := by
    rw [entryAt_delete here] at found
    split at found
    · cases found
    · exact wf.numbered j e' found
  root_dir e' found := by
    rw [entryAt_delete here] at found
    split at found
    · cases found
    · exact wf.root_dir e' found

end Fs
end ProxmoxFuse
