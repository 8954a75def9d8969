import ProxmoxFuse.Pruning

/-!
# Guards

Every operation holds the entries it works on by a lookup of its own and gives it
up at the end. What that leaves behind is the state without the guard, less entries
that no lookup counts: the guard collects them. Nothing that is reached from the
root is among them.
-/
namespace ProxmoxFuse.Fs
open LinkTree (Sound)

variable {fs fs' : Fs} {loose : List Nat} {i j : Nat} {e e' : FsEntry}

/-- What becomes of an entry when guards are given up: nothing, or the directory that
held it is collected, or it is collected itself, since no lookup counts it. -/
inductive Fades (e : FsEntry) : Option FsEntry → Prop where
  | same : Fades e (some e)
  | unlinked (linked : e.links = 1) (counted : 1 < e.lookups + 1) :
      Fades e (some { e with links := 0 })
  | gone (uncounted : ¬ 1 < e.lookups + 1) : Fades e none

theorem Stays.fades {o : Option FsEntry} (stays : Stays e o) : Fades e o := by
  cases stays with
  | same => exact .same
  | unlinked linked counted => exact .unlinked linked counted
  | deleted _ uncounted => exact .gone uncounted

/-- Entries that nobody counts have been collected. -/
structure Swept (fs fs' : Fs) : Prop where
  fades : ∀ j e, fs.entryAt j = some e → Fades e (fs'.entryAt j)
  gone : ∀ j, fs.entryAt j = none → fs'.entryAt j = none
  paths : ∀ q, fs'.tree.resolve ROOT_ID q = fs.tree.resolve ROOT_ID q

theorem tree_of_entries (same : ∀ j, fs'.entryAt j = fs.entryAt j) : fs'.tree = fs.tree := by
  apply tree_ext
  · intro j
    rw [tree_node, tree_node, same]
  · intro d name
    rw [tree_child, tree_child, same]

theorem Swept.of_entries (same : ∀ j, fs'.entryAt j = fs.entryAt j) : Swept fs fs' := by
  refine ⟨?_, ?_, ?_⟩
  · intro j e here
    rw [same, here]
    exact .same
  · intro j none
    rw [same, none]
  · intro q
    rw [tree_of_entries same]

theorem Swept.refl (fs : Fs) : Swept fs fs := .of_entries fun _ => rfl

theorem Fades.trans (first : Fades e (some e')) {o : Option FsEntry} (second : Fades e' o) :
    Fades e o := by
  cases first with
  | same => exact second
  | unlinked linked counted =>
      cases second with
      | same => exact .unlinked linked counted
      | unlinked again _ => cases again
      | gone uncounted => exact absurd counted uncounted

theorem Swept.trans {fs₂ : Fs} (first : Swept fs fs') (second : Swept fs' fs₂) : Swept fs fs₂ := by
  refine ⟨?_, fun j none => second.gone j (first.gone j none), fun q =>
    (second.paths q).trans (first.paths q)⟩
  intro j e here
  have before := first.fades j e here
  cases middle : fs'.entryAt j with
  | none =>
      rw [middle] at before
      rw [second.gone j middle]
      exact before
  | some e' =>
      rw [middle] at before
      exact before.trans (second.fades j e' middle)

/-- What is left of an entry counts the same lookups. -/
theorem Fades.lookups (fades : Fades e (some e')) : e'.lookups = e.lookups := by
  cases fades with
  | same => rfl
  | unlinked _ _ => rfl

theorem Fades.kept (fades : Fades e (some e')) : e' = { e with links := e'.links } := by
  cases fades with
  | same => rfl
  | unlinked _ _ => rfl

theorem Swept.lives (swept : Swept fs fs') (here : fs.entryAt i = some e)
    (counted : 1 < e.lookups + 1) :
    ∃ e', fs'.entryAt i = some e' ∧ Fades e (some e') := by
  have fades := swept.fades i e here
  cases after : fs'.entryAt i with
  | none =>
      rw [after] at fades
      cases fades with
      | gone uncounted => exact absurd counted uncounted
  | some e' =>
      rw [after] at fades
      exact ⟨e', rfl, fades⟩

/-- What was there before is all there is after. -/
theorem Swept.origin (swept : Swept fs fs') (there : fs'.entryAt i = some e') :
    ∃ e, fs.entryAt i = some e ∧ Fades e (some e') := by
  cases before : fs.entryAt i with
  | none =>
      rw [swept.gone i before] at there
      cases there
  | some e =>
      have fades := swept.fades i e before
      rw [there] at fades
      exact ⟨e, rfl, fades⟩

/-- What a path from the root leads to is not touched. -/
theorem Swept.reached (swept : Swept fs fs') (wf : Wf fs' loose) {q : List OsStr}
    (path : fs.tree.resolve ROOT_ID q = some i) (here : fs.entryAt i = some e) :
    fs'.entryAt i = some e := by
  have path' := (swept.paths q).trans path
  have one : ∃ up, fs'.tree.node i = some ⟨1, up⟩ := by
    rcases LinkTree.reached path' with rfl | ⟨d, name, held⟩
    · exact wf.sound.root_node
    · exact ⟨d, (wf.sound.held d name i held).1.node⟩
  obtain ⟨up, node⟩ := one
  have fades := swept.fades i e here
  cases after : fs'.entryAt i with
  | none =>
      rw [tree_node, after] at node
      cases node
  | some e' =>
      rw [after] at fades
      cases fades with
      | same => rfl
      | unlinked _ _ =>
          rw [node_of_entry after] at node
          cases node

/-! ### Giving a guard up -/

theorem names_update (here : fs.entryAt i = some e) {f : FsEntry → FsEntry}
    (names : ∀ name, (f e).content.name? name = e.content.name? name) (q : List OsStr) :
    (fs.update i f).tree.resolve ROOT_ID q = fs.tree.resolve ROOT_ID q := by
  refine resolve_tree_congr (fun d name => ?_) q
  rw [child_update here, names]
  split
  · next same =>
      subst same
      exact (child_of_entry here name).symm
  · rfl

theorem entryAt_update_none (f : FsEntry → FsEntry) (empty : fs.entryAt j = none) :
    (fs.update i f).entryAt j = none := by
  rw [entryAt_update, empty]
  split
  · rfl
  · rfl

/-- A guard that is given up after others, on an entry that is still there. -/
theorem Swept.dropGuard {mid : Fs} (swept : Swept (fs.update i addLookup) mid) (wf : Wf mid loose)
    (here : fs.entryAt i = some e) (there : mid.entryAt i = some e') :
    ∃ fs', mid.dropLookup i = .ok fs' ∧ Wf fs' loose ∧ Swept fs fs' := by
  obtain ⟨fs', dropped, wf', forgotten⟩ := forgetEntry_spec wf there 1
  refine ⟨fs', dropped, wf', ?_⟩
  have held : Fades (addLookup e) (some e') := by
    have fades := swept.fades i _ (entryAt_update_self here addLookup)
    rwa [there] at fades
  have paths : ∀ q, mid.tree.resolve ROOT_ID q = fs.tree.resolve ROOT_ID q := fun q =>
    (swept.paths q).trans (names_update here (fun _ => rfl) q)
  have other : ∀ j e₁, j ≠ i → fs.entryAt j = some e₁ → Fades e₁ (mid.entryAt j) :=
    fun j e₁ ne before =>
    swept.fades j e₁ ((entryAt_update_ne fs addLookup (Ne.symm ne)).trans before)
  cases forgotten with
  | kept why =>
      have restored : Fades e (some (subLookups 1 e')) := by
        cases held with
        | same =>
            have same : subLookups 1 (addLookup e) = e := by
              simp only [subLookups, addLookup, lookups_restored]
            rw [same]
            exact .same
        | unlinked linked _ =>
            have same : subLookups 1 { addLookup e with links := 0 } = { e with links := 0 } := by
              simp only [subLookups, addLookup, lookups_restored]
            rw [same]
            refine .unlinked linked ?_
            rcases why with more | still
            · exact more
            · exact absurd rfl still
      refine ⟨?_, ?_, ?_⟩
      · intro j e₁ before
        by_cases same : j = i
        · subst same
          rw [here] at before
          cases before
          rw [entryAt_update_self there]
          exact restored
        · rw [entryAt_update_ne mid _ (Ne.symm same)]
          exact other j e₁ same before
      · intro j none
        exact entryAt_update_none _ (swept.gone j (entryAt_update_none _ none))
      · intro q
        exact (names_update there (fun _ => rfl) q).trans (paths q)
  | deleted _ last unlinked emptied stays gone paths' files =>
      refine ⟨?_, ?_, fun q => (paths' q).trans (paths q)⟩
      · intro j e₁ before
        by_cases same : j = i
        · subst same
          rw [here] at before
          cases before
          rw [emptied]
          refine .gone ?_
          have counted : e'.lookups = e.lookups + 1 := held.lookups
          rw [← counted]
          exact last
        · have fades := other j e₁ same before
          cases middle : mid.entryAt j with
          | none =>
              rw [middle] at fades
              rw [gone j middle]
              exact fades
          | some e₂ =>
              rw [middle] at fades
              exact fades.trans (stays j e₂ same middle).fades
      · intro j none
        exact gone j (swept.gone j (entryAt_update_none _ none))

/-- A guard that nothing happened to while it was held. -/
theorem Wf.dropGuard (wf : Wf fs loose) (here : fs.entryAt i = some e) :
    ∃ fs', (fs.update i addLookup).dropLookup i = .ok fs' ∧ Wf fs' loose ∧ Swept fs fs' :=
  (Swept.refl _).dropGuard (wf.update here (alike_addLookup e)) here
    (entryAt_update_self here addLookup)

/-- An entry somebody counts or links is as it was when its guard is given up. -/
theorem dropGuard_kept (wf : Wf fs loose) (here : fs.entryAt i = some e)
    (why : 1 < e.lookups + 1 ∨ e.links ≠ 0) :
    (fs.update i addLookup).dropLookup i = .ok fs := by
  obtain ⟨fs', dropped, _, forgotten⟩ :=
    forgetEntry_spec (wf.update here (alike_addLookup e)) (entryAt_update_self here addLookup) 1
  rw [dropLookup, dropped]
  cases forgotten with
  | kept _ =>
      rw [update_update, update_id here]
      simp only [Function.comp, subLookups, addLookup, lookups_restored]
  | deleted _ last unlinked _ _ _ _ _ =>
      rcases why with more | still
      · exact absurd more last
      · exact absurd unlinked still

/-- What was collected before stays away. -/
theorem dropLookup_away (wf : Wf fs loose) (here : fs.entryAt i = some e)
    (dropped : fs.dropLookup i = .ok fs') (away : fs.entryAt j = none) : fs'.entryAt j = none := by
  obtain ⟨_, again, _, forgotten⟩ := forgetEntry_spec wf here 1
  cases again.symm.trans dropped
  cases forgotten with
  | kept _ => exact entryAt_update_none _ away
  | deleted _ _ _ _ _ gone _ _ => exact gone j away

/-- The last lookup of an entry without links is its end. -/
theorem dropLookup_collects (wf : Wf fs loose) (here : fs.entryAt i = some e)
    (unlinked : e.links = 0) (last : ¬ 1 < e.lookups) (dropped : fs.dropLookup i = .ok fs') :
    fs'.entryAt i = none := by
  obtain ⟨_, again, _, forgotten⟩ := forgetEntry_spec wf here 1
  cases again.symm.trans dropped
  cases forgotten with
  | kept why =>
      rcases why with more | linked
      · exact absurd more last
      · exact absurd unlinked linked
  | deleted _ _ _ gone _ _ _ _ => exact gone

/-- An entry without names takes no other with it. -/
theorem forgetEntry_leaf (here : fs.entryAt i = some e) (inode : e.inode = i)
    (leaf : ∀ name, e.content.name? name = none) {n : UInt64}
    (forgot : fs.forgetEntry i n = .ok fs') (ne : j ≠ i) :
    fs'.entryAt j = fs.entryAt j := by
  have inside := entryAt_lt here
  have apart : ∀ f, (fs.update i f).entryAt j = fs.entryAt j :=
    fun f => entryAt_update_ne fs f (Ne.symm ne)
  have gone : ∀ f, ((fs.update i f).delete i).entryAt j = fs.entryAt j := by
    intro f
    rw [entryAt_delete (entryAt_update_self here f), if_neg (Ne.symm ne)]
    exact apart f
  have room : ∀ f, i < (fs.update i f).entries.length := by
    intro f
    rw [Fs.update, Slots.length_update]
    exact inside
  simp only [forgetEntry, Option.getD_none, forgetEntryIn, deref_ok here, Except.ok_bind,
    inode] at forgot
  split at forgot
  · cases forgot
    exact apart _
  · split at forgot
    · cases forgot
      exact apart _
    · cases content : e.content with
      | file data =>
          simp only [content, room, if_true] at forgot
          cases forgot
          exact gone _
      | dir files =>
          have none : files.toList.map (·.2) = [] := by
            refine List.eq_nil_iff_forall_not_mem.mpr fun c listed => ?_
            obtain ⟨name, held⟩ := mem_values.mp listed
            have empty := leaf name
            rw [content, FsContent.name?_dir, held] at empty
            cases empty
          simp only [content, none, dropFiles, Except.ok_bind, update_update, room,
            if_true] at forgot
          cases forgot
          exact gone _

end ProxmoxFuse.Fs
