import ProxmoxFuse.FsTree

/-!
# Dropping lookups

What giving up a lookup does, said once: the count goes down, or the entry is
deleted and the entries that only it was holding lose their link, recursively.
The recursion ends because each nested call has emptied a directory before.
-/
namespace ProxmoxFuse.Fs
open LinkTree (Sound)

variable {fs fs' : Fs} {loose : List Nat} {i j : Nat} {e e' : FsEntry}

/-- What becomes of an entry when others are deleted: nothing, or it loses its
link and stays for its lookups, or it goes with the link. -/
inductive Stays (e : FsEntry) : Option FsEntry → Prop where
  | same : Stays e (some e)
  | unlinked (linked : e.links = 1) (counted : 1 < e.lookups + 1) :
      Stays e (some { e with links := 0 })
  | deleted (linked : e.links = 1) (uncounted : ¬ 1 < e.lookups + 1) : Stays e none

/-- Entries have gone, and nothing that is reached from the root. -/
structure Pruned (fs fs' : Fs) : Prop where
  stays : ∀ j e, fs.entryAt j = some e → Stays e (fs'.entryAt j)
  gone : ∀ j, fs.entryAt j = none → fs'.entryAt j = none
  paths : ∀ q, fs'.tree.resolve ROOT_ID q = fs.tree.resolve ROOT_ID q
  files : fs'.fileCount ≤ fs.fileCount

theorem Pruned.refl (fs : Fs) : Pruned fs fs := by
  refine ⟨?_, fun _ gone => gone, fun _ => rfl, le_rfl⟩
  intro j e here
  rw [here]
  exact .same

theorem Pruned.trans {fs₂ : Fs} (first : Pruned fs fs') (second : Pruned fs' fs₂) :
    Pruned fs fs₂ := by
  refine ⟨?_, fun j none => second.gone j (first.gone j none), fun q =>
    (second.paths q).trans (first.paths q), second.files.trans first.files⟩
  intro j e here
  have stays := first.stays j e here
  cases middle : fs'.entryAt j with
  | none =>
      rw [middle] at stays
      rw [second.gone j middle]
      exact stays
  | some e' =>
      have next := second.stays j e' middle
      rw [middle] at stays
      cases stays with
      | same => exact next
      | unlinked linked counted =>
          -- without its link it is not touched again
          generalize fs₂.entryAt j = o at next
          cases next with
          | same => exact .unlinked linked counted
          | unlinked again _ => cases again
          | deleted again _ => cases again

/-- What `forget_entry` does to the entry: its count goes down, or it is deleted with
what only it was holding. -/
inductive Forgotten (fs : Fs) (i : Nat) (e : FsEntry) (n : UInt64) : Fs → Prop where
  | kept (why : 1 < e.lookups ∨ e.links ≠ 0) :
      Forgotten fs i e n (fs.update i (subLookups n))
  | deleted (fs' : Fs) (last : ¬ 1 < e.lookups) (unlinked : e.links = 0)
      (here : fs'.entryAt i = none)
      (stays : ∀ j e', j ≠ i → fs.entryAt j = some e' → Stays e' (fs'.entryAt j))
      (gone : ∀ j, fs.entryAt j = none → fs'.entryAt j = none)
      (paths : ∀ q, fs'.tree.resolve ROOT_ID q = fs.tree.resolve ROOT_ID q)
      (files : fs'.fileCount ≤ fs.fileCount) : Forgotten fs i e n fs'

theorem fileCount_update (here : fs.entryAt i = some e) (f : FsEntry → FsEntry) :
    (fs.update i f).fileCount + e.content.fileCount = fs.fileCount + (f e).content.fileCount :=
  Slots.total_update _ here f

theorem fileCount_delete (here : fs.entryAt i = some e) :
    (fs.delete i).fileCount ≤ fs.fileCount := by
  have total := Slots.total_set (·.content.fileCount) here none
  simp only [Option.map_none, Option.getD_none] at total
  simp only [fileCount, delete]
  omega

theorem lookups_restored (n : UInt64) : n + 1 - 1 = n := by
  rw [UInt64.add_sub_cancel]

theorem resolve_tree_congr (same : ∀ d name, fs'.tree.child d name = fs.tree.child d name)
    (q : List OsStr) :
    fs'.tree.resolve ROOT_ID q = fs.tree.resolve ROOT_ID q :=
  LinkTree.resolve_congr same ROOT_ID q

/-- Looking an entry up through a loose link and dropping both. -/
theorem Forgotten.pruned {c : Nat} (here : fs.entryAt c = some e) (one : e.links = 1)
    (forgotten : Forgotten ((fs.update c addLookup).update c subLink) c
      (subLink (addLookup e)) 1 fs') :
    Pruned fs fs' := by
  rw [update_update] at forgotten
  have apart : ∀ j, j ≠ c → (fs.update c (subLink ∘ addLookup)).entryAt j = fs.entryAt j :=
    fun j ne => entryAt_update_ne fs _ (Ne.symm ne)
  have names : ∀ d name, (fs.update c (subLink ∘ addLookup)).tree.child d name =
      fs.tree.child d name := by
    intro d name
    rw [child_update here]
    split
    · next same =>
        subst same
        exact (child_of_entry here name).symm
    · rfl
  have files : (fs.update c (subLink ∘ addLookup)).fileCount = fs.fileCount :=
    Nat.add_right_cancel (fileCount_update here (subLink ∘ addLookup))
  cases forgotten with
  | kept why =>
      have counted : 1 < e.lookups + 1 := by
        rcases why with more | linked
        · exact more
        · exact absurd (by simp only [subLink, addLookup, one]; rfl) linked
      rw [update_update]
      generalize whole : subLookups 1 ∘ subLink ∘ addLookup = g
      have after : g e = { e with links := 0 } := by
        rw [← whole]
        simp only [Function.comp, subLookups, subLink, addLookup, lookups_restored, one]
        rfl
      refine ⟨?_, ?_, ?_, ?_⟩
      · intro j e' there
        by_cases same : c = j
        · subst same
          rw [here] at there
          cases there
          rw [entryAt_update_self here, after]
          exact .unlinked one counted
        · rw [entryAt_update_ne fs _ same, there]
          exact .same
      · intro j none
        rw [entryAt_update, none]
        split
        · rfl
        · rfl
      · refine resolve_tree_congr fun d name => ?_
        rw [child_update here, after]
        split
        · next same =>
            subst same
            exact (child_of_entry here name).symm
        · rfl
      · have total := fileCount_update here g
        rw [after] at total
        exact (Nat.add_right_cancel total).le
  | deleted _ last unlinked here' stays gone paths files' =>
      refine ⟨?_, ?_, ?_, files'.trans files.le⟩
      · intro j e' there
        by_cases same : j = c
        · subst same
          rw [here] at there
          cases there
          rw [here']
          exact .deleted one last
        · exact stays j e' same ((apart j same).trans there)
      · intro j none
        by_cases same : j = c
        · subst same
          exact here'
        · exact gone j ((apart j same).trans none)
      · intro q
        exact (paths q).trans (resolve_tree_congr names q)

/-- Dropping a lookup of an entry that is there. -/
def Forgets (depth : Nat) : Prop :=
  ∀ (fs : Fs) (loose : List Nat) (i : Nat) (e : FsEntry) (n : UInt64),
    Wf fs loose → fs.entryAt i = some e →
    fs.fileCount < depth → ∃ fs', fs.forgetEntryIn depth i n = .ok fs' ∧ Wf fs' loose ∧
      Forgotten fs i e n fs'

theorem dropFiles_pruned {depth : Nat} (forgets : Forgets depth) {cs : List Nat}
    (wf : Wf fs (cs ++ loose)) (room : cs ≠ [] → fs.fileCount < depth) :
    ∃ fs', dropFiles (fun fs node => fs.forgetEntryIn depth node 1) cs fs = .ok fs' ∧ Wf fs' loose ∧
      Pruned fs fs' := by
  induction cs generalizing fs with
  | nil => exact ⟨fs, rfl, wf, .refl fs⟩
  | cons c cs ih =>
      obtain ⟨e, here, one⟩ := wf.loose_entry List.mem_cons_self
      have looked := wf.update here (alike_addLookup e)
      have there := entryAt_update_self (entryAt_update_self here addLookup) subLink
      have files : ((fs.update c addLookup).update c subLink).fileCount = fs.fileCount := by
        rw [update_update]
        exact Nat.add_right_cancel (fileCount_update here (subLink ∘ addLookup))
      obtain ⟨fs₁, forgot, wf₁, forgotten⟩ := forgets _ (cs ++ loose) c _ 1 looked.subLink there
        (files ▸ room (List.cons_ne_nil c cs))
      have pruned := forgotten.pruned here one
      obtain ⟨fs₂, rest, wf₂, pruned₂⟩ := ih wf₁ fun _ =>
        Nat.lt_of_le_of_lt pruned.files (room (List.cons_ne_nil c cs))
      refine ⟨fs₂, ?_, wf₂, pruned.trans pruned₂⟩
      simp only [dropFiles, lookup_ok here, forgot, Except.ok_bind, rest]

theorem mem_values {files : Files} {c : Nat} :
    c ∈ files.toList.map (·.2) ↔ ∃ name : OsStr, files[name]? = some c := by
  constructor
  · intro member
    obtain ⟨⟨name, c'⟩, listed, rfl⟩ := List.mem_map.mp member
    exact ⟨name, Std.ExtTreeMap.mem_toList_iff_getElem?_eq_some.mp listed⟩
  · rintro ⟨name, here⟩
    exact List.mem_map.mpr ⟨(name, c), Std.ExtTreeMap.mem_toList_iff_getElem?_eq_some.mpr here, rfl⟩

/-- No inode stands twice in a directory. -/
theorem Wf.values_nodup (wf : Wf fs loose) (here : fs.entryAt i = some e) {files : Files}
    (dir : e.content = .dir files) : (files.toList.map (·.2)).Nodup := by
  have child : ∀ name c, (name, c) ∈ files.toList → fs.tree.child i name = some c := by
    intro name c listed
    rw [child_of_entry here, dir]
    exact Std.ExtTreeMap.mem_toList_iff_getElem?_eq_some.mp listed
  refine List.pairwise_map.mpr (List.Pairwise.imp_of_mem ?_ Std.ExtTreeMap.distinct_keys_toList)
  rintro ⟨name, c⟩ ⟨name', c'⟩ listed listed' apart rfl
  have same := wf.sound.once i name name' c (child name c listed) (child name' c listed')
  subst same
  exact apart Std.ReflCmp.compare_self

/-- A directory is emptied before its files are dropped. -/
theorem Wf.emptied (wf : Wf fs loose) (here : fs.entryAt i = some e) {files : Files}
    (dir : e.content = .dir files) :
    Wf (fs.update i takeFiles) (files.toList.map (·.2) ++ loose) := by
  refine wf.cut here (by rw [dir]; rfl) rfl (fun _ => True) ?_ (wf.values_nodup here dir) ?_
  · intro name
    simp
  · intro c
    rw [mem_values, dir]
    simp

/-- An entry that lost its last lookup and has no links is reached by no path. -/
theorem Wf.unreached (wf : Wf fs loose) (here : fs.entryAt i = some e) (zero : e.links = 0)
    (q : List OsStr) :
    fs.tree.resolve ROOT_ID q ≠ some i := by
  obtain ⟨below, _, nowhere⟩ := wf.sound.of_links_zero (Wf.node_zero here zero)
  intro path
  rcases LinkTree.reached path with root | ⟨d, name, held⟩
  · exact below root
  · exact nowhere d name held

/-- The end of `forget_entry`: the entry was emptied and what it held dropped, now it goes itself.
-/
theorem forgotten_delete {n : UInt64} {mid : Fs} (wf : Wf fs loose) (here : fs.entryAt i = some e)
    (last : ¬ 1 < e.lookups) (zero : e.links = 0) {f : FsEntry → FsEntry} (links : (f e).links = 0)
    (empty : ∀ name, (f e).content.name? name = none)
    (fewer : (f e).content.fileCount ≤ e.content.fileCount) (wf' : Wf mid loose)
    (pruned : Pruned (fs.update i f) mid) :
    Wf (mid.delete i) loose ∧ Forgotten fs i e n (mid.delete i) ∧ i < mid.entries.length := by
  -- the entry has no link to lose, so that it is still as it was
  have still : mid.entryAt i = some (f e) := by
    have stays := pruned.stays i (f e) (entryAt_update_self here f)
    generalize mid.entryAt i = o at stays
    cases stays with
    | same => rfl
    | unlinked linked _ => exact absurd (links.symm.trans linked) (by decide)
    | deleted linked _ => exact absurd (links.symm.trans linked) (by decide)
  have total := fileCount_update here f
  refine ⟨wf'.delete still links empty, .deleted _ last zero ?_ ?_ ?_ ?_ ?_, entryAt_lt still⟩
  · rw [entryAt_delete still, if_pos rfl]
  · intro j e' ne there
    rw [entryAt_delete still, if_neg (Ne.symm ne)]
    exact pruned.stays j e' ((entryAt_update_ne fs f (Ne.symm ne)).trans there)
  · intro j none
    rw [entryAt_delete still]
    split
    · rfl
    · exact pruned.gone j (by rw [entryAt_update, none]; split <;> rfl)
  · intro q
    have removed : ∀ d name, (mid.delete i).tree.child d name = mid.tree.child d name := by
      intro d name
      rw [tree_delete still empty]
      rfl
    have cut : ∀ d name, (fs.update i f).tree.child d name =
        (fs.tree.cut i fun _ => True).child d name := by
      intro d name
      rw [child_update here, empty]
      simp only [LinkTree.cut, and_true, eq_comm]
    calc (mid.delete i).tree.resolve ROOT_ID q = mid.tree.resolve ROOT_ID q :=
      resolve_tree_congr removed q
        _ = (fs.update i f).tree.resolve ROOT_ID q := pruned.paths q
        _ = (fs.tree.cut i fun _ => True).resolve ROOT_ID q := LinkTree.resolve_congr cut ROOT_ID q
        _ = fs.tree.resolve ROOT_ID q := LinkTree.resolve_cut_unreached (wf.unreached here zero) _ q
  · have removed := fileCount_delete still
    have files := pruned.files
    omega

theorem alike_subLookups (n : UInt64) (e : FsEntry) : Alike e (subLookups n e) :=
  ⟨rfl, rfl, rfl, rfl, fun _ => rfl, rfl⟩

theorem forgets (depth : Nat) : Forgets depth := by
  induction depth with
  | zero =>
      intro fs loose i e n wf here room
      exact absurd room (Nat.not_lt_zero _)
  | succ depth ih =>
      intro fs loose i e n wf here room
      have lowered := wf.update here (alike_subLookups n e)
      have here₁ := entryAt_update_self here (subLookups n)
      have inode := (wf.numbered i e here).2.1
      simp only [forgetEntryIn, deref_ok here, Except.ok_bind, inode]
      split
      · next more => exact ⟨_, rfl, lowered, .kept (.inl more)⟩
      · next last =>
          split
          · next linked => exact ⟨_, rfl, lowered, .kept (.inr linked)⟩
          · next unlinked =>
              have zero : e.links = 0 := by simpa using unlinked
              cases content : e.content with
              | file data =>
                  have empty : ∀ name, (subLookups n e).content.name? name = none := by
                    intro name
                    rw [subLookups, content]
                    rfl
                  obtain ⟨wf', forgotten, inside⟩ :=
                    forgotten_delete (n := n) wf here last zero zero empty le_rfl lowered (.refl _)
                  simp only [inside, if_true]
                  exact ⟨_, rfl, wf', forgotten⟩
              | dir files =>
                  have emptied := lowered.emptied here₁ content
                  have total := fileCount_update here (takeFiles ∘ subLookups n)
                  rw [← update_update, content] at total
                  have room' : files.toList.map (·.2) ≠ [] →
                      ((fs.update i (subLookups n)).update i takeFiles).fileCount < depth := by
                    intro some
                    have size : files.size ≠ 0 := by
                      intro none
                      rw [← Std.ExtTreeMap.length_toList] at none
                      exact some (by rw [List.length_eq_zero_iff.mp none]; rfl)
                    have taken : (FsContent.dir files).fileCount = files.size := rfl
                    have left : ((takeFiles ∘ subLookups n) e).content.fileCount = 0 := rfl
                    omega
                  obtain ⟨mid, dropped, wf', pruned⟩ := dropFiles_pruned ih emptied room'
                  rw [update_update] at pruned
                  obtain ⟨wf'', forgotten, inside⟩ :=
                    forgotten_delete (n := n) wf here last zero zero
                      (fun name => by simp [takeFiles]) (Nat.zero_le _) wf' pruned
                  simp only [dropped, Except.ok_bind, inside, if_true]
                  exact ⟨_, rfl, wf'', forgotten⟩

/-- Dropping a lookup of an entry that is there always comes back. -/
theorem forgetEntry_spec (wf : Wf fs loose) (here : fs.entryAt i = some e) (n : UInt64) :
    ∃ fs', fs.forgetEntry i n = .ok fs' ∧ Wf fs' loose ∧ Forgotten fs i e n fs' :=
  forgets _ fs loose i e n wf here (Nat.lt_succ_self _)

end ProxmoxFuse.Fs
