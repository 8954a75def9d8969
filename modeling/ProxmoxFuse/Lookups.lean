import Mathlib.Data.UInt
import ProxmoxFuse.FsRuns

/-!
# Every lookup is accounted for

The count of an entry is what the server counts: what it showed, GETATTRs and
cancelled LOOKUPs included, less what was forgotten and released. A run that forgets
no more than that keeps every inode that the server counts a lookup of, and never
follows a reference to one that is gone.
-/
namespace ProxmoxFuse
open Fs

/-! ### What a file can do -/

namespace BlockFile

/-- A file holds no references: it may panic or run out of stack, nothing else. -/
abbrev Holds {α : Type} (x : Except Crash α) : Prop := Raises (· ≠ .dangling) x

theorem panic_ne : Crash.panic ≠ .dangling := by decide

theorem checkWord_holds (n : Nat) : Holds (checkWord n) := by
  unfold checkWord
  exact Raises.ite (fun _ => .ok) fun _ => .error panic_ne

theorem checkedSub_holds (a b : Nat) : Holds (checkedSub a b) := by
  unfold checkedSub
  exact Raises.ite (fun _ => .ok) fun _ => .error panic_ne

theorem size_holds (f : BlockFile) : Holds f.size := by
  unfold size
  split
  · exact .ok
  · exact checkWord_holds _

theorem getReadExtents_holds (f : BlockFile) (offset : Nat) : Holds (f.getReadExtents offset) := by
  unfold getReadExtents
  split
  · exact .ok
  · refine Raises.ite (fun _ => .error panic_ne) fun _ => ?_
    refine Raises.bind (size_holds f) fun _ _ => ?_
    exact Raises.ite (fun _ => .error panic_ne) fun _ => .ok

theorem readExtents_holds (l : List Extent) (left offset : Nat) (out : Bytes) :
    Holds (readExtents l left offset out) := by
  induction l generalizing left offset out with
  | nil => exact .ok
  | cons extent rest ih =>
      unfold readExtents
      refine Raises.ite (fun _ => ?_) fun _ => Raises.ite (fun _ => .ok) fun _ => ?_
      · refine Raises.ite (fun _ => .error panic_ne) fun _ => ?_
        exact Raises.bind (checkWord_holds _) fun _ _ => ih _ _ _
      · exact Raises.bind (checkWord_holds _) fun _ _ => ih _ _ _

theorem read_holds (f : BlockFile) (buf : Bytes) (offset : Nat) : Holds (f.read buf offset) := by
  unfold read
  refine Raises.bind (checkWord_holds _) fun _ _ => Raises.bind (size_holds f) fun _ _ => ?_
  refine Raises.bind (Raises.ite (fun _ => checkedSub_holds _ _) fun _ => .ok) fun _ _ => ?_
  refine Raises.bind (getReadExtents_holds f offset) fun _ _ => ?_
  exact Raises.bind (readExtents_holds _ _ _ _) fun _ _ => .ok

theorem moveTrailing_holds (f : BlockFile) (front : List Extent) (extent : Extent) (inEnd : Nat)
    (further : List Extent) :
    Holds (f.moveTrailing front extent inEnd further) := by
  unfold moveTrailing
  refine Raises.bind (checkWord_holds _) fun _ _ => ?_
  split
  · exact .ok
  · refine Raises.ite (fun _ => .ok) fun _ => ?_
    refine Raises.bind (checkWord_holds _) fun _ _ => Raises.bind (checkedSub_holds _ _) fun _ _ =>
      ?_
    refine Raises.bind (checkWord_holds _) fun _ _ => Raises.bind (checkedSub_holds _ _) fun _ _ =>
      ?_
    refine Raises.ite (fun _ => .error panic_ne) fun _ => ?_
    refine Raises.bind (checkWord_holds _) fun _ _ => ?_
    exact Raises.ite (fun _ => .error panic_ne) fun _ => .ok

theorem writeWithin_holds (f : BlockFile) (front : List Extent) (extent : Extent)
    (further : List Extent) (buf : Bytes) (inOfs : Nat) :
    Holds (f.writeWithin front extent further buf inOfs) := by
  simp only [writeWithin]
  split
  · exact .ok
  · exact moveTrailing_holds _ _ _ _ _

theorem writeChunks_holds {write : BlockFile → Bytes → Nat → Except Crash BlockFile}
    (holds : ∀ f buf offset, Holds (write f buf offset)) (max rounds : Nat) (buf : Bytes)
    (f : BlockFile) (offset : Nat) :
    Holds (writeChunks write max rounds buf f offset) := by
  induction rounds generalizing buf f offset with
  | zero => exact .ok
  | succ rounds ih =>
      unfold writeChunks
      refine Raises.ite (fun _ => .ok) fun _ => Raises.bind (holds _ _ _) fun _ _ => ?_
      exact Raises.bind (checkWord_holds _) fun _ _ => ih _ _ _

theorem write_holds (depth : Nat) (f : BlockFile) (buf : Bytes) (offset : Nat) :
    Holds (f.write depth buf offset) := by
  induction depth generalizing f buf offset with
  | zero => exact .error (by decide)
  | succ depth ih =>
      unfold write
      refine Raises.bind (checkWord_holds _) fun _ _ => ?_
      refine Raises.ite (fun _ => Raises.ite (fun _ => .error panic_ne) fun _ =>
        writeChunks_holds ih _ _ _ _ _) fun _ => ?_
      refine Raises.ite (fun _ => Raises.bind (checkWord_holds _) fun _ _ => .ok) fun _ => ?_
      extract_lets index
      split
      · exact .error panic_ne
      · refine Raises.bind (checkedSub_holds _ _) fun _ _ =>
          Raises.bind (checkWord_holds _) fun _ _ => ?_
        refine Raises.bind (checkWord_holds _) fun _ _ => ?_
        refine Raises.ite (fun _ => ?_) fun _ => writeWithin_holds _ _ _ _ _ _
        refine Raises.bind (checkedSub_holds _ _) fun _ _ => ?_
        refine Raises.ite (fun _ => .error panic_ne) fun _ => ?_
        refine Raises.bind (ih _ _ _) fun _ _ => ?_
        exact Raises.bind (checkWord_holds _) fun _ _ => ih _ _ _

end BlockFile

section runs
variable {τ : Type} [Timeout τ]

/-! ### Counting lookups -/

instance (fs : Fs) (p : Nat) (name : OsStr) : Decidable (fs.Vacant p name) :=
  decidable_of_iff (((fs.entryAt p).any fun e => e.content.isDir && (e.content.name? name).isNone) =
    true) <| by
    simp [Vacant, Option.any_eq_true]

/-- What a turn adds to the lookups of an inode and takes from them, in a count of
any kind. A creation starts a new count. -/
def Fs.charge {κ : Type} [Zero κ] [One κ] [Add κ] [Sub κ] (weigh : UInt64 → κ) (fs : Fs)
    (v : Visit τ) (count : Nat → κ) (i : Nat) : κ :=
  if fs.shows v.request = some i then count i + 1
  else if (v.request.forgetting.map Prod.fst) = some i then
    count i - weigh ((v.request.forgetting.map Prod.snd).getD 0)
  else
    match v.request.creation with
    | none => count i
    | some c =>
        if i = fs.takeInode.1 ∧ fs.Vacant c.parent c.name then
          if v.request.untaken v.env
            (born fs.takeInode.1 c.parent c.mode c.content v.env.now).stat v.host then 0 else 1
        else count i

section charges
variable {κ : Type} [Zero κ] [One κ] [Add κ] [Sub κ] {weigh : UInt64 → κ} {fs fs' : Fs}
  {v : Visit τ} {count : Nat → κ} {i : Nat}

theorem charge_shown (shows : fs.shows v.request = some i) :
    fs.charge weigh v count i = count i + 1 := if_pos shows

theorem charge_none (shows : fs.shows v.request ≠ some i)
    (forgetting : ∀ n, v.request.forgetting ≠ some (i, n))
    (creation : ∀ c, v.request.creation = some c → i = fs.takeInode.1 →
      ¬ fs.Vacant c.parent c.name) :
    fs.charge weigh v count i = count i := by
  have kept : v.request.forgetting.map Prod.fst ≠ some i := by
    intro same
    obtain ⟨⟨j, n⟩, asks, rfl⟩ := Option.map_eq_some_iff.mp same
    exact forgetting n asks
  rw [charge, if_neg shows, if_neg kept]
  cases asks : v.request.creation with
  | none => rfl
  | some c => exact if_neg fun new => creation c asks new.1 new.2

end charges

/-- What a turn makes of the lookups of an entry that is there after it. -/
inductive Tallied (fs : Fs) (v : Visit τ) (i : Nat) : UInt64 → Prop where
  | shown (e : FsEntry) (here : fs.entryAt i = some e) (shows : fs.shows v.request = some i) :
      Tallied fs v i (e.lookups + 1)
  | forgot (e : FsEntry) (n : UInt64) (here : fs.entryAt i = some e)
      (shows : fs.shows v.request = none) (asks : v.request.forgetting = some (i, n)) :
      Tallied fs v i (e.lookups - n)
  | made (c : Creation) (fresh : fs.entryAt i = none) (shows : fs.shows v.request = none)
      (forgetting : v.request.forgetting = none) (asks : v.request.creation = some c)
      (vacant : fs.Vacant c.parent c.name) (new : i = fs.takeInode.1) :
      Tallied fs v i (if v.request.untaken v.env
        (born fs.takeInode.1 c.parent c.mode c.content v.env.now).stat v.host
        then 0 else 1)
  | same (e : FsEntry) (here : fs.entryAt i = some e) (shows : fs.shows v.request ≠ some i)
      (forgetting : ∀ n, v.request.forgetting ≠ some (i, n))
      (creation : ∀ c, v.request.creation = some c → i = fs.takeInode.1 →
        ¬ fs.Vacant c.parent c.name) :
      Tallied fs v i e.lookups

section tallies
variable {fs mid fs' : Fs} {v : Visit τ} {i : Nat} {e : FsEntry}

/-- An entry that was there keeps its count if the turn neither shows nor forgets it. -/
theorem Tallied.kept (wf : Wf fs []) (here : fs.entryAt i = some e)
    (shows : fs.shows v.request ≠ some i) (forgetting : ∀ n, v.request.forgetting ≠ some (i, n)) :
    Tallied fs v i e.lookups := by
  refine .same e here shows forgetting ?_
  rintro c _ rfl _
  rw [(takeInode_fresh wf).1] at here
  cases here

/-- A turn that neither shows nor forgets, and changes no count. -/
theorem Tallied.idle (wf : Wf fs []) (shows : fs.shows v.request = none)
    (forgetting : v.request.forgetting = none) (here : fs.entryAt i = some e) :
    Tallied fs v i e.lookups := by
  refine .kept wf here ?_ ?_
  · rw [shows]
    exact fun same => by cases same
  · intro n
    rw [forgetting]
    exact fun same => by cases same

theorem lookups_update {j : Nat} {f : FsEntry → FsEntry}
    (there : (fs.update j f).entryAt i = some e) (keeps : ∀ e, (f e).lookups = e.lookups) :
    ∃ e₀, fs.entryAt i = some e₀ ∧ e.lookups = e₀.lookups := by
  rw [entryAt_update] at there
  split at there
  · obtain ⟨e₀, here, rfl⟩ := Option.map_eq_some_iff.mp there
    exact ⟨e₀, here, keeps e₀⟩
  · exact ⟨e, there, rfl⟩

theorem Fs.Linked.tallied {p k : Nat} {name : OsStr} {new : FsEntry}
    (linked : Linked fs p name k new mid) (other : i ≠ k) (there : mid.entryAt i = some e) :
    ∃ e₀, fs.entryAt i = some e₀ ∧ e.lookups = e₀.lookups := by
  rw [linked.entries, if_neg other] at there
  split at there
  · obtain ⟨e₀, here, rfl⟩ := Option.map_eq_some_iff.mp there
    exact ⟨e₀, here, rfl⟩
  · exact ⟨e, there, rfl⟩

theorem Effect.tallied (wf : Wf fs []) {r' : Request} {c : Consume τ r'}
    (effect : Effect v.env fs v.host v.request mid r' c) (there : mid.entryAt i = some e) :
    Tallied fs v i e.lookups := by
  obtain ⟨env, request, host⟩ := v
  cases effect with
  | shown _ t e₁ shows here =>
      rw [entryAt_update] at there
      split at there
      · next same =>
          subst same
          rw [here] at there
          cases there
          exact .shown e₁ here shows
      · next other =>
          refine .kept wf there ?_ ?_
          · rw [shows]
            exact fun same => other (Option.some.inj same)
          · intro n
            rw [(shows_kind shows).1]
            exact fun same => by cases same
  | restated r e₁ here =>
      obtain ⟨e₀, before, same⟩ := lookups_update there fun _ => rfl
      rw [same]
      exact .idle wf rfl rfl before
  | forgot _ j n e₁ _ asks here forgotten =>
      obtain ⟨shows, _, _⟩ := forgetting_kind fs asks
      have elsewhere : ∀ {e₀}, j ≠ i → fs.entryAt i = some e₀ →
          Tallied fs ⟨env, request, host⟩ i e₀.lookups := by
        intro e₀ ne before
        refine .kept wf before ?_ ?_
        · rw [shows]
          exact fun same => by cases same
        · intro n'
          rw [asks]
          exact fun same => ne (congrArg Prod.fst (Option.some.inj same))
      cases forgotten with
      | kept why =>
          rw [entryAt_update] at there
          split at there
          · next same =>
              subst same
              rw [here] at there
              cases there
              exact .forgot e₁ n here shows asks
          · next ne => exact elsewhere ne there
      | deleted _ last unlinked gone stays away paths files =>
          by_cases same : i = j
          · subst same
            rw [gone] at there
            cases there
          · cases before : fs.entryAt i with
            | none =>
                rw [away i before] at there
                cases there
            | some e₀ =>
                have left := stays i e₀ same before
                rw [there] at left
                rw [left.fades.lookups]
                exact elsewhere (Ne.symm same) before
  | forgotNothing r gone =>
      refine .kept wf there (fun same => by cases same) ?_
      intro n same
      cases same
      rw [gone] at there
      cases there
  | made _ c mid₀ asks vacant wfMid linked taken =>
      obtain ⟨shows, forgetting, _⟩ := creation_kind fs asks
      rw [entryAt_update] at there
      split at there
      · next same =>
          subst same
          rw [linked.new] at there
          cases there
          have one :=
            Tallied.made (v := ⟨env, request, host⟩) c linked.fresh shows forgetting asks vacant rfl
          rw [if_neg (by rw [taken]; exact Bool.false_ne_true)] at one
          exact one
      · next ne =>
          obtain ⟨e₀, before, same⟩ := linked.tallied (Ne.symm ne) there
          rw [same]
          exact .idle wf shows forgetting before
  | madeUntaken _ c _ asks vacant wfMid linked untaken =>
      obtain ⟨shows, forgetting, _⟩ := creation_kind fs asks
      by_cases same : i = fs.takeInode.1
      · subst same
        rw [linked.new] at there
        cases there
        have zero :=
          Tallied.made (v := ⟨env, request, host⟩) c linked.fresh shows forgetting asks vacant rfl
        rw [if_pos untaken] at zero
        exact zero
      · obtain ⟨e₀, before, equal⟩ := linked.tallied same there
        rw [equal]
        exact .idle wf shows forgetting before
  | removed _ p name isRmdir c _ asks allowed swept ends =>
      obtain ⟨shows, forgetting, _⟩ := removal_kind fs asks
      obtain ⟨e₁, left, fades⟩ := swept.origin there
      obtain ⟨e₂, middle, same⟩ := lookups_update left fun _ => rfl
      obtain ⟨e₃, before, same'⟩ := lookups_update middle fun _ => rfl
      rw [fades.lookups, same, same']
      exact .idle wf shows forgetting before
  | opened r e₁ here => exact .idle wf rfl rfl there
  | wrote r data e₁ old new size given here kind written sized =>
      obtain ⟨e₀, before, same⟩ := lookups_update there fun _ => rfl
      rw [same]
      exact .idle wf rfl rfl before
  | gave r e₁ file got buf here kind done => exact .idle wf rfl rfl there
  | listed r r' e₁ files state stop here dir added => exact .idle wf rfl rfl there
  | refused _ r' error why =>
      refine .kept wf there ?_ ?_
      · rw [why.shows]
        exact fun same => by cases same
      · intro n asks
        rw [why.forgets i n asks] at there
        cases there
  | unknown _ other =>
      exact .idle wf (unhandled_kind fs other).1 (unhandled_kind fs other).2.1 there

theorem Visited.tallied (wf : Wf fs []) (visited : Visited fs v fs')
    (there : fs'.entryAt i = some e) :
    Tallied fs v i e.lookups := by
  cases visited with
  | visited mid _ r' c effect swept _ =>
      obtain ⟨e₁, before, fades⟩ := swept.origin there
      rw [fades.lookups]
      exact effect.tallied wf before

/-- The lookups of every entry are what the ledger of its inode comes to. -/
theorem Tallied.charged {count : Nat → UInt64}
    (agree : ∀ e, fs.entryAt i = some e → e.lookups = count i) {n : UInt64}
    (tallied : Tallied fs v i n) : n = fs.charge id v count i := by
  cases tallied with
  | shown e here shows => rw [charge_shown shows, agree e here]
  | forgot e n here shows asks =>
      have none : fs.shows v.request ≠ some i := by
        rw [shows]
        exact fun same => by cases same
      rw [charge, if_neg none, asks, agree e here]
      simp
  | made c fresh shows forgetting asks vacant new =>
      have none : fs.shows v.request ≠ some i := by
        rw [shows]
        exact fun same => by cases same
      rw [charge, if_neg none, forgetting, asks]
      simp [new, vacant]
  | same e here shows forgetting creation =>
      rw [charge_none shows forgetting creation, agree e here]

/-- Why an entry is not there any more after a turn. -/
inductive Ended (fs : Fs) (v : Visit τ) (i : Nat) (n : UInt64) : Prop where
  | uncounted (shows : fs.shows v.request ≠ some i) (none : ¬ 1 < n + 1)
  | forgot (m : UInt64) (asks : v.request.forgetting = some (i, m))
      (last : ¬ 1 < n ∨ ¬ 1 < n - m + 1)
  | wrapped (shows : fs.shows v.request = some i) (none : ¬ 1 < n + 1 + 1)

theorem Fs.Swept.ended {n : UInt64} (swept : Swept mid fs') (there : mid.entryAt i = some e)
    (same : e.lookups = n) (gone : fs'.entryAt i = none) : ¬ 1 < n + 1 := by
  have fades := swept.fades i e there
  rw [gone] at fades
  cases fades with
  | gone uncounted => exact same ▸ uncounted

theorem entryAt_update_some {j : Nat} (here : fs.entryAt i = some e) (f : FsEntry → FsEntry)
    (keeps : ∀ e, (f e).lookups = e.lookups) :
    ∃ e', (fs.update j f).entryAt i = some e' ∧ e'.lookups = e.lookups := by
  rw [entryAt_update, here]
  split
  · exact ⟨f e, rfl, keeps e⟩
  · exact ⟨e, rfl, rfl⟩

theorem Fs.Linked.survives {p k : Nat} {name : OsStr} {new : FsEntry}
    (linked : Linked fs p name k new mid) (here : fs.entryAt i = some e) :
    ∃ e', mid.entryAt i = some e' ∧ e'.lookups = e.lookups := by
  have other : i ≠ k := by
    rintro rfl
    rw [linked.fresh] at here
    cases here
  rw [linked.entries, if_neg other, here]
  split
  · exact ⟨_, rfl, rfl⟩
  · exact ⟨e, rfl, rfl⟩

omit [Timeout τ] in
theorem Ended.hidden {n : UInt64} (shows : fs.shows v.request = none) (none : ¬ 1 < n + 1) :
    Ended fs v i n := by
  refine .uncounted ?_ none
  rw [shows]
  exact fun same => by cases same

theorem Visited.ended (visited : Visited fs v fs') (here : fs.entryAt i = some e)
    (gone : fs'.entryAt i = none) :
    Ended fs v i e.lookups := by
  obtain ⟨env, request, host⟩ := v
  cases visited with
  | visited mid _ r' c effect swept _ =>
      cases effect with
      | shown _ t e₁ shows there =>
          by_cases same : t = i
          · subst same
            rw [there] at here
            cases here
            exact .wrapped shows (swept.ended (entryAt_update_self there addLookup) rfl gone)
          · refine .uncounted ?_ (swept.ended ((entryAt_update_ne fs _ same).trans here) rfl gone)
            rw [shows]
            exact fun equal => same (Option.some.inj equal)
      | forgot _ j n e₁ _ asks there forgotten =>
          have hidden := (forgetting_kind fs asks).1
          cases forgotten with
          | kept why =>
              by_cases same : j = i
              · subst same
                rw [there] at here
                cases here
                exact .forgot n asks (.inr
                  (swept.ended (entryAt_update_self there (subLookups n)) rfl gone))
              · exact .hidden hidden (swept.ended
                  ((entryAt_update_ne fs _ same).trans here) rfl gone)
          | deleted _ last unlinked away stays gone' paths files =>
              by_cases same : i = j
              · subst same
                rw [there] at here
                cases here
                exact .forgot n asks (.inl last)
              · have left := stays i e same here
                cases middle : mid.entryAt i with
                | none =>
                    rw [middle] at left
                    cases left with
                    | deleted _ uncounted => exact .hidden hidden uncounted
                | some e₂ =>
                    rw [middle] at left
                    exact .hidden hidden (swept.ended middle left.fades.lookups gone)
      | made _ c mid₀ asks vacant wfMid linked taken =>
          obtain ⟨e₁, middle, same⟩ := linked.survives here
          have other : fs.takeInode.1 ≠ i := by
            rintro rfl
            rw [linked.fresh] at here
            cases here
          exact .hidden (creation_kind fs asks).1
            (swept.ended ((entryAt_update_ne mid₀ _ other).trans middle) same gone)
      | madeUntaken _ c _ asks vacant wfMid linked untaken =>
          obtain ⟨e₁, middle, same⟩ := linked.survives here
          exact .hidden (creation_kind fs asks).1 (swept.ended middle same gone)
      | removed _ p name isRmdir c _ asks allowed swept' ends =>
          obtain ⟨e₁, first, same₁⟩ := entryAt_update_some (j := p) here (disown name) fun _ => rfl
          obtain ⟨e₂, second, same₂⟩ := entryAt_update_some (j := c) first subLink fun _ => rfl
          exact .hidden (removal_kind fs asks).1
            ((swept'.trans swept).ended second (same₂.trans same₁) gone)
      | restated r e₁ there =>
          obtain ⟨e₂, middle, same⟩ :=
            entryAt_update_some (j := r.inode.toNat) here (restat r env.now) fun _ => rfl
          exact .hidden rfl (swept.ended middle same gone)
      | wrote r data e₁ old new size given there kind written sized =>
          obtain ⟨e₂, middle, same⟩ :=
            entryAt_update_some (j := r.inode.toNat) here (stored new size) fun _ => rfl
          exact .hidden rfl (swept.ended middle same gone)
      | forgotNothing r _ => exact .hidden rfl (swept.ended here rfl gone)
      | opened r e₁ _ => exact .hidden rfl (swept.ended here rfl gone)
      | gave r e₁ file got buf _ kind done => exact .hidden rfl (swept.ended here rfl gone)
      | listed r r' e₁ files state stop _ dir added => exact .hidden rfl (swept.ended here rfl gone)
      | refused _ r' error why => exact .hidden why.shows (swept.ended here rfl gone)
      | unknown _ other => exact .hidden (unhandled_kind fs other).1 (swept.ended here rfl gone)

/-! ### Every lookup is accounted for -/

/-- The ledger of a new file system: the root is looked up once. -/
def opening {κ : Type} [Zero κ] [One κ] (i : Nat) : κ := if i = ROOT_ID then 1 else 0

/-- In every run, the lookups of every entry are those that the server counted less what was
forgotten and released, since its inode was last created. -/
theorem lookups_are_the_ledger {now : Duration} {vs : List (Visit τ)} {count : Nat → UInt64}
    (served : (Fs.new now).noted (Fs.charge id) opening vs = .ok (fs', count))
    (there : fs'.entryAt i = some e) :
    e.lookups = count i := by
  have agree : ∀ i e, (Fs.new now).entryAt i = some e → e.lookups = (opening i : UInt64) := by
    intro i e here
    rw [new_entryAt] at here
    split at here
    · next root =>
        cases here
        exact (if_pos root).symm
    · cases here
  refine (noted_induct (P := fun fs count => ∀ i e, fs.entryAt i = some e → e.lookups = count i) ?_
    (new_wf now) agree
    served).2 i e there
  intro fs v fs' count wf agree visited i e there
  exact (visited.tallied wf there).charged (agree i)

/-- A new directory, shown once more. -/
def shownTwice : List (Visit (UInt64 × UInt32)) :=
  [quietly (.mkdir ⟨⟨7⟩, 1, [97], 0⟩), quietly (.getattr ⟨⟨8⟩, 2⟩)]

theorem lookups_are_the_ledger_getattr :
    ∃ fs count e, (Fs.new midnight).noted (Fs.charge id) opening shownTwice = .ok (fs, count) ∧
      fs.entryAt 2 = some e ∧ e.lookups = count 2 := by
  refine ⟨_, _, _, rfl, rfl, ?_⟩
  exact lookups_are_the_ledger
    (show (Fs.new midnight).noted (Fs.charge id) opening shownTwice = _ from rfl) rfl

/-! ### Runs that forget no more than was shown -/

/-- A turn forgets at least one lookup, and no more than the ledger has. -/
def Fair (count : Nat → Nat) (r : Request) : Prop :=
  ∀ i n, r.forgetting = some (i, n) → 1 ≤ n.toNat ∧ n.toNat ≤ count i

def FairRun (fs : Fs) (count : Nat → Nat) : List (Visit τ) → Prop
  | [] => True
  | v :: rest => Fair count v.request ∧
      ∀ out, handle v.env fs v.request v.host = .ok out →
        FairRun out.2.1 (fs.charge UInt64.toNat v count) rest

/-- The ledger is right, and what it counts is there; `turns` bounds all of it. -/
structure Accounted (fs : Fs) (count : Nat → Nat) (turns : Nat) : Prop where
  counts : ∀ i e, fs.entryAt i = some e → e.lookups.toNat = count i
  lives : ∀ i, 0 < count i → ∃ e, fs.entryAt i = some e
  bounded : ∀ i, count i ≤ turns

variable {count : Nat → Nat} {turns : Nat}

theorem Accounted.modest (a : Accounted fs count turns) (room : turns + 2 < 2 ^ 64) :
    fs.Modest := by
  intro i e here
  have bound := a.bounded i
  rw [a.counts i e here]
  omega

theorem charge_forgot {n : UInt64} (shows : fs.shows v.request ≠ some i)
    (asks : v.request.forgetting = some (i, n)) :
    fs.charge UInt64.toNat v count i = count i - n.toNat := by
  rw [charge, if_neg shows, asks]
  simp

theorem charge_made {c : Creation} (shows : fs.shows v.request ≠ some i)
    (forgetting : v.request.forgetting = none) (asks : v.request.creation = some c)
    (vacant : fs.Vacant c.parent c.name) (new : i = fs.takeInode.1) :
    fs.charge UInt64.toNat v count i =
      if v.request.untaken v.env
        (born fs.takeInode.1 c.parent c.mode c.content v.env.now).stat v.host then 0 else 1 := by
  rw [charge, if_neg shows, forgetting, asks]
  simp [new, vacant]

/-- What a turn can make of an inode's count. -/
theorem charge_cases (fs : Fs) (v : Visit τ) (count : Nat → Nat) (i : Nat) :
    (fs.shows v.request = some i ∧ fs.charge UInt64.toNat v count i = count i + 1) ∨
      (fs.shows v.request ≠ some i ∧ ∃ n, v.request.forgetting = some (i, n) ∧
        fs.charge UInt64.toNat v count i = count i - n.toNat) ∨
      (∃ c, v.request.creation = some c ∧ fs.Vacant c.parent c.name ∧ i = fs.takeInode.1 ∧
        fs.charge UInt64.toNat v count i =
          if v.request.untaken v.env (born fs.takeInode.1 c.parent c.mode c.content v.env.now).stat
            v.host
          then 0 else 1) ∨
      (fs.shows v.request ≠ some i ∧ (∀ n, v.request.forgetting ≠ some (i, n)) ∧
        fs.charge UInt64.toNat v count i = count i) := by
  by_cases shows : fs.shows v.request = some i
  · exact .inl ⟨shows, charge_shown shows⟩
  · by_cases forgets : ∃ n, v.request.forgetting = some (i, n)
    · obtain ⟨n, asks⟩ := forgets
      exact .inr (.inl ⟨shows, n, asks, charge_forgot shows asks⟩)
    · have kept : ∀ n, v.request.forgetting ≠ some (i, n) := fun n asks => forgets ⟨n, asks⟩
      by_cases makes : ∃ c, v.request.creation = some c ∧ fs.Vacant c.parent c.name ∧
        i = fs.takeInode.1
      · obtain ⟨c, asks, vacant, new⟩ := makes
        exact .inr (.inr (.inl ⟨c, asks, vacant, new,
          charge_made shows (creation_kind fs asks).2.1 asks vacant new⟩))
      · refine .inr (.inr (.inr ⟨shows, kept, charge_none shows kept ?_⟩))
        intro c asks new vacant
        exact makes ⟨c, asks, vacant, new⟩

/-- A creation whose reply was taken leaves its inode. -/
theorem Visited.makes {c : Creation} (visited : Visited fs v fs')
    (asks : v.request.creation = some c) (vacant : fs.Vacant c.parent c.name)
    (taken : v.request.untaken v.env (born fs.takeInode.1 c.parent c.mode c.content v.env.now).stat
      v.host = false) :
    ∃ e, fs'.entryAt fs.takeInode.1 = some e := by
  obtain ⟨env, request, host⟩ := v
  cases visited with
  | visited mid _ r' c' effect swept _ =>
      cases effect with
      | made _ c₁ mid₀ asks₁ _ _ linked _ =>
          obtain ⟨e, there, _⟩ := made_entry linked swept
          exact ⟨e, there⟩
      | madeUntaken _ c₁ _ asks₁ _ _ _ untaken =>
          cases asks.symm.trans asks₁
          rw [untaken] at taken
          cases taken
      | shown _ t e₁ shows _ => cases asks.symm.trans (shows_kind shows).2.1
      | forgot _ j n e₁ _ forgets _ _ => cases asks.symm.trans (forgetting_kind fs forgets).2.1
      | removed _ p name isRmdir k _ removes _ _ _ =>
          cases asks.symm.trans (removal_kind fs removes).2.2
      | refused _ _ error why => exact absurd vacant (why.creates c asks)
      | unknown _ other => cases asks.symm.trans (unhandled_kind fs other).2.2.1
      | _ => cases asks

theorem Tallied.counted (a : Accounted fs count turns) (room : turns + 2 < 2 ^ 64)
    (fair : Fair count v.request) {n : UInt64} (tallied : Tallied fs v i n) :
    n.toNat = fs.charge UInt64.toNat v count i := by
  have bound := a.bounded i
  cases tallied with
  | shown e here shows =>
      rw [charge_shown shows, UInt64.toNat_add, a.counts i e here]
      exact Nat.mod_eq_of_lt (by simp; omega)
  | forgot e n here shows asks =>
      have none : fs.shows v.request ≠ some i := by
        rw [shows]
        exact fun same => by cases same
      obtain ⟨_, covered⟩ := fair i n asks
      rw [← a.counts i e here] at covered
      rw [charge_forgot none asks, UInt64.toNat_sub_of_le _ _ (UInt64.le_iff_toNat_le.mpr covered),
        a.counts i e here]
  | made c fresh shows forgetting asks vacant new =>
      have none : fs.shows v.request ≠ some i := by
        rw [shows]
        exact fun same => by cases same
      rw [charge_made none forgetting asks vacant new]
      split
      · rfl
      · rfl
  | same e here shows forgetting creation =>
      rw [charge_none shows forgetting creation, a.counts i e here]

theorem uncounted_zero {n : UInt64} (modest : n.toNat + 2 < 2 ^ 64) (uncounted : ¬ 1 < n + 1) :
    n.toNat = 0 := by
  rw [UInt64.lt_iff_toNat_lt, UInt64.toNat_add] at uncounted
  have one : (1 : UInt64).toNat = 1 := rfl
  rw [one] at uncounted
  omega

theorem last_le_one {n : UInt64} (last : ¬ 1 < n) : n.toNat ≤ 1 := by
  rw [UInt64.lt_iff_toNat_lt] at last
  exact Nat.not_lt.mp last

theorem shows_live {r : Request} {t : Nat} (shows : fs.shows r = some t) :
    ∃ e, fs.entryAt t = some e := by
  cases r with
  | getattr r =>
      simp only [Fs.shows] at shows
      split at shows
      · next here =>
          cases shows
          exact Option.isSome_iff_exists.mp here
      · cases shows
  | lookup r => exact target_live shows
  | _ => cases shows

theorem Accounted.turn (a : Accounted fs count turns) (wf : Wf fs []) (room : turns + 2 < 2 ^ 64)
    (fair : Fair count v.request) (visited : Visited fs v fs') :
    Accounted fs' (fs.charge UInt64.toNat v count) (turns + 1) := by
  refine ⟨fun i e there => (visited.tallied wf there).counted a room fair, ?_, ?_⟩
  · intro i positive
    by_contra gone
    have gone : fs'.entryAt i = none :=
      Option.eq_none_iff_forall_ne_some.mpr fun e there => gone ⟨e, there⟩
    cases before : fs.entryAt i with
    | none =>
        have zero : count i = 0 := by
          by_contra some
          obtain ⟨e, here⟩ := a.lives i (Nat.pos_of_ne_zero some)
          rw [before] at here
          cases here
        rcases charge_cases fs v count i with ⟨shows, _⟩ | ⟨_, n, asks, _⟩ | ⟨c, asks, vacant,
          rfl, counted⟩ | ⟨_, _, same⟩
        · obtain ⟨e, here⟩ := shows_live shows
          rw [before] at here
          cases here
        · obtain ⟨some, covered⟩ := fair i n asks
          omega
        · rw [counted] at positive
          split at positive
          · exact absurd positive (Nat.lt_irrefl 0)
          · next taken =>
              obtain ⟨e, there⟩ := visited.makes asks vacant (by simpa using taken)
              rw [gone] at there
              cases there
        · omega
    | some e =>
        have same := a.counts i e before
        have bound := a.bounded i
        cases visited.ended before gone with
        | uncounted shows none =>
            have zero := uncounted_zero (a.modest room i e before) none
            rcases charge_cases fs v count i with ⟨shows', _⟩ | ⟨_, n, _, counted⟩ | ⟨c, _, _,
              rfl, _⟩ | ⟨_, _, counted⟩
            · exact shows shows'
            · omega
            · rw [(takeInode_fresh wf).1] at before
              cases before
            · omega
        | forgot m asks last =>
            have hidden : fs.shows v.request ≠ some i := by
              rw [(forgetting_kind fs asks).1]
              exact fun same => by cases same
            obtain ⟨some, covered⟩ := fair i m asks
            rw [charge_forgot hidden asks] at positive
            rcases last with last | last
            · have few := last_le_one last
              omega
            · have left : (e.lookups - m).toNat = e.lookups.toNat - m.toNat :=
                UInt64.toNat_sub_of_le _ _ (UInt64.le_iff_toNat_le.mpr (by omega))
              have none := uncounted_zero (by omega) last
              omega
        | wrapped shows none =>
            exact none (counted_twice (a.modest room i e before))
  · intro i
    have bound := a.bounded i
    rcases charge_cases fs v count i with ⟨_, counted⟩ | ⟨_, n, _, counted⟩ | ⟨c, _, _, _,
      counted⟩ | ⟨_, _, counted⟩
    · omega
    · omega
    · rw [counted]
      split
      · omega
      · omega
    · omega

omit [Timeout τ] in
theorem Breaks.ne_dangling {env : Env τ} {r : Request} {crash : Crash} (modest : fs.Modest)
    (breaks : Breaks env fs r crash) : crash ≠ .dangling := by
  cases breaks with
  | dangling _ wild => exact absurd modest wild
  | data r fault torn => exact BlockFile.panic_ne
  | write r data e old crash given here kind stuck =>
      exact (Raises.bind (BlockFile.write_holds _ _ _ _) fun f _ => BlockFile.size_holds f)
        crash stuck
  | read r e file crash here kind stuck => exact BlockFile.read_holds file _ _ crash stuck
  | spent r nothing => exact BlockFile.panic_ne

/-! ### Nothing is left behind -/

/-- No more than one lookup is forgotten. -/
def Request.Sparing (r : Request) : Prop := ∀ i n, r.forgetting = some (i, n) → n.toNat ≤ 1

/-- What has no link is held by a lookup. -/
def Fs.Tidy (fs : Fs) : Prop := ∀ i e, fs.entryAt i = some e → e.links = 0 → 1 < e.lookups + 1

theorem Fs.Fades.tidy {e' : FsEntry} (fades : Fades e (some e'))
    (tidy : e.links = 0 → 1 < e.lookups + 1) (unlinked : e'.links = 0) : 1 < e'.lookups + 1 := by
  cases fades with
  | same => exact tidy unlinked
  | unlinked _ counted => exact counted

theorem Fs.Swept.tidy (swept : Swept mid fs') (tidy : mid.Tidy) : fs'.Tidy := by
  intro i e there unlinked
  obtain ⟨e₁, before, fades⟩ := swept.origin there
  exact fades.tidy (tidy i e₁ before) unlinked

theorem tidy_update {j : Nat} {f : FsEntry → FsEntry} (tidy : fs.Tidy)
    (keeps : ∀ e, fs.entryAt j = some e → (f e).links = 0 → 1 < (f e).lookups + 1) :
    (fs.update j f).Tidy := by
  intro i e there unlinked
  rw [entryAt_update] at there
  split at there
  · next same =>
      subst same
      obtain ⟨e₀, here, rfl⟩ := Option.map_eq_some_iff.mp there
      exact keeps e₀ here unlinked
  · exact tidy i e there unlinked

theorem Fs.Linked.tidy {p k : Nat} {name : OsStr} {new : FsEntry}
    (linked : Linked fs p name k new mid) (one : new.links = 1) (tidy : fs.Tidy) : mid.Tidy := by
  intro i e there unlinked
  rw [linked.entries] at there
  split at there
  · cases there
    rw [one] at unlinked
    cases unlinked
  · split at there
    · obtain ⟨e₀, here, rfl⟩ := Option.map_eq_some_iff.mp there
      exact tidy i e₀ here unlinked
    · exact tidy i e there unlinked

theorem forget_leaves {n m : UInt64} (more : 1 < n) (few : m.toNat ≤ 1)
    (modest : n.toNat + 2 < 2 ^ 64) :
    1 < n - m + 1 := by
  rw [UInt64.lt_iff_toNat_lt] at more ⊢
  have one : (1 : UInt64).toNat = 1 := rfl
  rw [one] at more
  rw [UInt64.toNat_add, UInt64.toNat_sub_of_le _ _ (UInt64.le_iff_toNat_le.mpr (by omega)), one]
  omega

theorem Effect.tidy {r' : Request} {c : Consume τ r'}
    (effect : Effect v.env fs v.host v.request mid r' c) (tidy : fs.Tidy) (modest : fs.Modest)
    (sparing : v.request.Sparing) : mid.Tidy := by
  obtain ⟨env, request, host⟩ := v
  cases effect with
  | shown _ t e₁ shows here =>
      exact tidy_update tidy fun e there _ => counted_twice (modest t e there)
  | restated r e₁ here => exact tidy_update tidy fun e there unlinked => tidy _ e there unlinked
  | forgot _ j n e₁ _ asks here forgotten =>
      cases forgotten with
      | kept why =>
          refine tidy_update tidy fun e there unlinked => ?_
          rw [here] at there
          cases there
          rcases why with more | linked
          · exact forget_leaves more (sparing j n asks) (modest j e₁ here)
          · exact absurd unlinked linked
      | deleted _ last unlinked gone stays away paths files =>
          intro i e there unlinked'
          by_cases same : i = j
          · subst same
            rw [gone] at there
            cases there
          · cases before : fs.entryAt i with
            | none =>
                rw [away i before] at there
                cases there
            | some e₀ =>
                have left := stays i e₀ same before
                rw [there] at left
                exact left.fades.tidy (tidy i e₀ before) unlinked'
  | made _ c mid₀ asks vacant wfMid linked taken =>
      refine tidy_update (linked.tidy rfl tidy) fun e there unlinked => ?_
      rw [linked.new] at there
      cases there
      cases unlinked
  | madeUntaken _ c _ asks vacant wfMid linked untaken => exact linked.tidy rfl tidy
  | removed _ p name isRmdir c _ asks allowed swept ends =>
      intro i e there unlinked
      by_cases same : i = c
      · subst same
        exact ends e there
      · obtain ⟨e₁, before, fades⟩ := swept.origin there
        rw [entryAt_update_ne _ _ (Ne.symm same)] at before
        have kept : (fs.update p (disown name)).Tidy :=
          tidy_update tidy fun e here unlinked => tidy p e here unlinked
        exact fades.tidy (kept i e₁ before) unlinked
  | wrote r data e₁ old new size given here kind written sized =>
      exact tidy_update tidy fun e there unlinked => tidy _ e there unlinked
  | forgotNothing r gone => exact tidy
  | opened r e₁ here => exact tidy
  | gave r e₁ file got buf here kind done => exact tidy
  | listed r r' e₁ files state stop here dir added => exact tidy
  | refused _ r' error why => exact tidy
  | unknown _ other => exact tidy

theorem Visited.tidy (visited : Visited fs v fs') (tidy : fs.Tidy) (modest : fs.Modest)
    (sparing : v.request.Sparing) : fs'.Tidy := by
  cases visited with
  | visited mid _ r' c effect swept _ => exact swept.tidy (effect.tidy tidy modest sparing)

theorem new_tidy (now : Duration) : (Fs.new now).Tidy := by
  intro i e here unlinked
  rw [new_entryAt] at here
  split at here
  · cases here
    cases unlinked
  · cases here

/-! ### Whole runs -/

theorem FairRun.accounted {vs : List (Visit τ)} (fair : FairRun fs count vs)
    (a : Accounted fs count turns) (wf : Wf fs []) (room : turns + vs.length + 2 < 2 ^ 64) :
    Raises (· ≠ .dangling) (fs.noted (Fs.charge UInt64.toNat) count vs) ∧
      Returns (fun out => Wf out.1 [] ∧ Accounted out.1 out.2 (turns + vs.length) ∧
          ((∀ v ∈ vs, v.request.Sparing) → fs.Tidy → out.1.Tidy))
        (fs.noted (Fs.charge UInt64.toNat) count vs) := by
  induction vs generalizing fs count turns with
  | nil =>
      refine ⟨.ok, ?_⟩
      intro out same
      cases same
      exact ⟨wf, a, fun _ tidy => tidy⟩
  | cons v rest ih =>
      rw [List.length_cons] at room ⊢
      obtain ⟨now, later⟩ := fair
      have settled : Settled v.env fs v.request v.host (handle v.env fs v.request v.host) :=
        handle_settled wf v.request
      simp only [noted]
      cases handled : handle v.env fs v.request v.host with
      | error crash =>
          rw [handled] at settled
          refine ⟨?_, .error⟩
          cases settled with
          | broken _ breaks => exact .error (breaks.ne_dangling (a.modest (by omega)))
      | ok out =>
          have visited := handle_visited wf handled
          have next :=
            ih (later out handled) (a.turn wf (by omega) now visited) visited.wf (by omega)
          rw [show turns + 1 + rest.length = turns + (rest.length + 1) by omega] at next
          refine ⟨next.1, ?_⟩
          intro last served
          obtain ⟨wf', a', tidies⟩ := next.2 last served
          refine ⟨wf', a', ?_⟩
          intro sparing tidy
          exact tidies (fun v member => sparing v (List.mem_cons_of_mem _ member))
            (visited.tidy tidy (a.modest (by omega)) (sparing v List.mem_cons_self))

theorem new_accounted (now : Duration) : Accounted (Fs.new now) opening 1 := by
  refine ⟨?_, ?_, ?_⟩
  · intro i e here
    rw [new_entryAt] at here
    split at here
    · next root =>
        cases here
        exact (if_pos root).symm
    · cases here
  · intro i positive
    simp only [opening] at positive
    split at positive
    · next root => exact ⟨rootEntry now, by rw [new_entryAt, if_pos root]⟩
    · exact absurd positive (Nat.lt_irrefl 0)
  · intro i
    simp only [opening]
    split
    · exact le_rfl
    · exact Nat.zero_le 1

/-- A run whose forgets are covered never follows a dangling reference, and every inode that
was shown more often than forgotten is there and counts the difference. -/
theorem fair_runs_are_safe {now : Duration} {vs : List (Visit τ)}
    (fair : FairRun (Fs.new now) opening vs) (short : vs.length + 3 < 2 ^ 64) :
    (Fs.new now).noted (Fs.charge UInt64.toNat) opening vs ≠ .error .dangling ∧
      ∀ fs' count, (Fs.new now).noted (Fs.charge UInt64.toNat) opening vs = .ok (fs', count) → ∀ i,
        (∀ e, fs'.entryAt i = some e → e.lookups.toNat = count i) ∧
          (0 < count i → ∃ e, fs'.entryAt i = some e) := by
  obtain ⟨raises, returns⟩ := fair.accounted (new_accounted now) (new_wf now) (by omega)
  refine ⟨fun dangling => raises .dangling dangling rfl, ?_⟩
  intro fs' count served i
  obtain ⟨_, a, _⟩ := returns (fs', count) served
  exact ⟨a.counts i, a.lives i⟩

/-- A new directory that the kernel forgets. -/
def madeAndForgotten : List (Visit (UInt64 × UInt32)) :=
  [quietly (.mkdir ⟨⟨7⟩, 1, [97], 0⟩), quietly (.forget ⟨⟨8⟩, 2, 1⟩)]

theorem madeAndForgotten_fair : FairRun (Fs.new midnight) opening madeAndForgotten := by
  refine ⟨?_, fun out _ => ⟨?_, fun _ _ => trivial⟩⟩
  · intro i n asks
    cases asks
  · intro i n asks
    cases asks
    decide +kernel

theorem fair_runs_are_safe_forget :
    FairRun (Fs.new midnight) opening madeAndForgotten ∧
      (Fs.new midnight).noted (Fs.charge UInt64.toNat) opening madeAndForgotten ≠
        .error .dangling :=
  ⟨madeAndForgotten_fair, (fair_runs_are_safe madeAndForgotten_fair (by decide)).1⟩

/-- If lookups are forgotten one at a time, what is left in the table is the root, what has a
name, and what the server still counts a lookup of, GETATTRs and cancelled LOOKUPs included. -/
theorem nothing_is_left_behind {now : Duration} {vs : List (Visit τ)}
    (fair : FairRun (Fs.new now) opening vs) (short : vs.length + 3 < 2 ^ 64)
    (sparing : ∀ v ∈ vs, v.request.Sparing)
    (served : (Fs.new now).noted (Fs.charge UInt64.toNat) opening vs = .ok (fs', count)) (i : Nat) :
    (∃ e, fs'.entryAt i = some e) ↔
      i = ROOT_ID ∨ (∃ d name, fs'.tree.child d name = some i) ∨ 0 < count i := by
  obtain ⟨wf, a, tidies⟩ :=
    (fair.accounted (new_accounted now) (new_wf now) (by omega)).2 (fs', count) served
  have tidy := tidies sparing (new_tidy now)
  constructor
  · rintro ⟨e, here⟩
    by_cases root : i = ROOT_ID
    · exact .inl root
    · by_cases held : ∃ d name, fs'.tree.child d name = some i
      · exact .inr (.inl held)
      · have unlinked : e.links.toNat = 0 :=
          wf.sound.unheld i _ (node_of_entry here) root List.not_mem_nil fun d name child =>
            held ⟨d, name, child⟩
        have counted := tidy i e here (UInt64.toNat.inj unlinked)
        have same : e.lookups.toNat = count i := a.counts i e here
        refine .inr (.inr ?_)
        rw [← same]
        by_contra none
        rw [show e.lookups = 0 from UInt64.toNat.inj (Nat.eq_zero_of_not_pos none)] at counted
        exact absurd counted (by decide)
  · rintro (rfl | ⟨d, name, child⟩ | positive)
    · obtain ⟨up, node⟩ := wf.sound.root_node
      rw [tree_node, Option.map_eq_some_iff] at node
      obtain ⟨e, here, _⟩ := node
      exact ⟨e, here⟩
    · have node := (wf.sound.held d name i child).1.node
      rw [tree_node, Option.map_eq_some_iff] at node
      obtain ⟨e, here, _⟩ := node
      exact ⟨e, here⟩
    · exact a.lives i positive

theorem nothing_is_left_behind_forget :
    ∃ fs count, (Fs.new midnight).noted (Fs.charge UInt64.toNat) opening madeAndForgotten =
      .ok (fs, count) ∧
      ((∃ e, fs.entryAt 2 = some e) ↔ 2 = ROOT_ID ∨ (∃ d name, fs.tree.child d name = some 2) ∨
        0 < count 2) := by
  refine ⟨_, _, rfl, ?_⟩
  refine nothing_is_left_behind madeAndForgotten_fair (by decide) ?_ rfl 2
  intro v member
  simp only [madeAndForgotten, List.mem_cons, List.not_mem_nil, or_false] at member
  rcases member with rfl | rfl
  · intro i n asks
    cases asks
  · intro i n asks
    cases asks
    decide

end tallies
end runs
end ProxmoxFuse
