import ProxmoxFuse.Lookups
import ProxmoxFuse.Namespace

/-!
# Where counting goes wrong

Three slips of the bookkeeping, over every fair run. A RELEASE is taken for a forget
although an OPEN is not counted, so that opening and closing a file uses its lookups
up; a forget of several lookups compares the count it finds with one, so that it
collects nothing; and GETATTR, and a reply that the kernel does not take, leave a
lookup behind that nobody has to give up.
-/
namespace ProxmoxFuse
open Fs

section turns
variable {τ : Type} [Timeout τ] {fs fs' : Fs} {v : Visit τ} {i : Nat} {e : FsEntry}

/-- Requests whose handlers touch no file and fill no buffer. -/
def Request.sturdy : Request → Bool
  | .write _ | .read _ | .readdir _ => false
  | _ => true

omit [Timeout τ] in
theorem Breaks.wild {env : Env τ} {r : Request} {crash : Crash} (breaks : Breaks env fs r crash)
    (sturdy : r.sturdy = true) :
    ¬ fs.Modest := by
  cases breaks with
  | dangling _ wild => exact wild
  | data | write | read | spent => cases sturdy

/-- Where no count is about to wrap around, such a turn comes back. -/
theorem serve_turn (wf : Wf fs []) (modest : fs.Modest) (sturdy : v.request.sturdy = true) :
    ∃ fs', Visited fs v fs' ∧ ∀ rest, fs.serve (v :: rest) = fs'.serve rest := by
  cases handled : handle v.env fs v.request v.host with
  | error crash =>
      have settled : Settled v.env fs v.request v.host (handle v.env fs v.request v.host) :=
        handle_settled wf v.request
      rw [handled] at settled
      cases settled with
      | broken _ breaks => exact absurd modest (breaks.wild sturdy)
  | ok out =>
      refine ⟨out.2.1, handle_visited wf handled, fun rest => ?_⟩
      simp only [serve, handled, Except.ok_bind]

theorem Visited.opens (visited : Visited fs v fs') {r : Open} (asks : v.request = .open r) :
    Swept fs fs' := by
  obtain ⟨env, request, host⟩ := v
  cases asks
  obtain ⟨mid, _, r', c, effect, swept, wf⟩ := visited
  cases effect with
  | shown _ t e shows there => cases shows
  | forgot _ i n e _ asks here forgotten => cases asks
  | made _ c mid asks vacant wf linked taken => cases asks
  | madeUntaken _ c mid asks vacant wf linked untaken => cases asks
  | removed _ p name isRmdir c _ asks allowed removed ends => cases asks
  | opened r e here => exact swept
  | refused _ r' error why => exact swept
  | unknown _ other => cases other

theorem Visited.forgets (visited : Visited fs v fs') {n : UInt64}
    (asks : v.request.forgetting = some (i, n)) (here : fs.entryAt i = some e) :
    ∃ mid, Forgotten fs i e n mid ∧ Swept mid fs' := by
  obtain ⟨env, request, host⟩ := v
  obtain ⟨mid, _, r', c, effect, swept, wf⟩ := visited
  cases effect with
  | shown _ t e shows there => cases asks.symm.trans (shows_kind shows).1
  | forgot _ j m e' _ asks' here' forgotten =>
      cases asks.symm.trans asks'
      cases here.symm.trans here'
      exact ⟨mid, forgotten, swept⟩
  | forgotNothing r gone =>
      cases asks
      cases here.symm.trans gone
  | made _ c mid asks' vacant wf linked taken => cases asks.symm.trans (creation_kind fs asks').2.1
  | madeUntaken _ c mid asks' vacant wf linked untaken =>
      cases asks.symm.trans (creation_kind fs asks').2.1
  | removed _ p name isRmdir c _ asks' allowed removed ends =>
      cases asks.symm.trans (removal_kind fs asks').2.1
  | refused _ r' error why => cases here.symm.trans (why.forgets i n asks)
  | unknown _ other => cases asks.symm.trans (unhandled_kind fs other).2.1
  | restated r e' here' => cases asks
  | opened r e here' => cases asks
  | wrote r data e old new size given here' kind written sized => cases asks
  | gave r e file got buf here' kind done => cases asks
  | listed r r' e files state stop here' dir added => cases asks

/-- What a removal leaves is looked up by somebody. -/
theorem Visited.removes (visited : Visited fs v fs') {p c : Nat} {name : OsStr} {isRmdir : Bool}
    (asks : v.request.removal = some (p, name, isRmdir))
    (allowed : fs.removable p name isRmdir = some c) :
    Swept ((fs.update p (disown name)).update c subLink) fs' ∧ ∀ e,
      fs'.entryAt c = some e → 1 < e.lookups + 1 := by
  obtain ⟨env, request, host⟩ := v
  obtain ⟨mid, _, r', k, effect, swept, wf⟩ := visited
  cases effect with
  | shown _ t e shows there => cases asks.symm.trans (shows_kind shows).2.2
  | forgot _ j m e' _ asks' here' forgotten => cases asks.symm.trans (forgetting_kind fs asks').2.2
  | made _ c mid asks' vacant wf linked taken => cases asks.symm.trans (creation_kind fs asks').2.2
  | madeUntaken _ c mid asks' vacant wf linked untaken =>
      cases asks.symm.trans (creation_kind fs asks').2.2
  | removed _ p' name' isRmdir' c' _ asks' allowed' removed ends =>
      cases asks.symm.trans asks'
      cases allowed.symm.trans allowed'
      refine ⟨removed.trans swept, ?_⟩
      intro e there
      obtain ⟨e', before, fades⟩ := swept.origin there
      rw [fades.lookups]
      exact ends e' before
  | refused _ r' error why => cases allowed.symm.trans (why.removes p name isRmdir asks)
  | unknown _ other => cases asks.symm.trans (unhandled_kind fs other).2.2.2
  | restated r e' here' => cases asks
  | forgotNothing r gone => cases asks
  | opened r e here' => cases asks
  | wrote r data e old new size given here' kind written sized => cases asks
  | gave r e file got buf here' kind done => cases asks
  | listed r r' e files state stop here' dir added => cases asks

/-! ### Opening and closing a file -/

variable {q : List OsStr}

theorem Fs.Wf.reached_linked (wf : Wf fs []) (path : fs.tree.resolve ROOT_ID q = some i)
    (here : fs.entryAt i = some e) :
    e.links = 1 := by
  have node : ∃ up, fs.tree.node i = some ⟨1, up⟩ := by
    rcases LinkTree.reached path with rfl | ⟨d, name, held⟩
    · exact wf.sound.root_node
    · exact ⟨d, (wf.sound.held d name i held).1.node⟩
  obtain ⟨up, node⟩ := node
  rw [node_of_entry here] at node
  exact UInt64.toNat_inj.mp (congrArg LinkNode.links (Option.some.inj node))

/-- A turn that gives up one lookup of an inode that a path leads to only lowers its count. -/
theorem Visited.released (visited : Visited fs v fs') (wf : Wf fs [])
    (asks : v.request.forgetting = some (i, 1)) (path : fs.tree.resolve ROOT_ID q = some i)
    (here : fs.entryAt i = some e) : Swept (fs.update i (subLookups 1)) fs' := by
  obtain ⟨mid, forgotten, swept⟩ := visited.forgets asks here
  cases forgotten with
  | kept why => exact swept
  | deleted _ last unlinked =>
      rw [wf.reached_linked path here] at unlinked
      cases unlinked

/-- A file that a path leads to, in a table whose counts are far from wrapping around. -/
structure Resting (fs : Fs) (q : List OsStr) (i : Nat) (e : FsEntry) : Prop where
  wf : Wf fs []
  modest : fs.Modest
  path : fs.tree.resolve ROOT_ID q = some i
  here : fs.entryAt i = some e

theorem Resting.swept (resting : Resting fs q i e) (swept : Swept fs fs') (wf : Wf fs' []) :
    Resting fs' q i e := by
  refine ⟨wf, ?_, (swept.paths q).trans resting.path, swept.reached wf resting.path resting.here⟩
  intro j e' there
  obtain ⟨e₀, before, fades⟩ := swept.origin there
  rw [fades.lookups]
  exact resting.modest j e₀ before

theorem Resting.subLookup (resting : Resting fs q i e) (counted : 1 ≤ e.lookups.toNat) :
    Resting (fs.update i (subLookups 1)) q i (subLookups 1 e) ∧
      (subLookups 1 e).lookups.toNat = e.lookups.toNat - 1 := by
  have less : (e.lookups - 1).toNat = e.lookups.toNat - 1 :=
    UInt64.toNat_sub_of_le _ _ (UInt64.le_iff_toNat_le.mpr counted)
  refine ⟨⟨resting.wf.update resting.here (alike_subLookups 1 e), ?_, ?_, ?_⟩, less⟩
  · intro j e' there
    rw [entryAt_update] at there
    split at there
    · next same =>
        subst same
        rw [resting.here] at there
        cases there
        have bound := resting.modest i e resting.here
        change (e.lookups - 1).toNat + 2 < 2 ^ 64
        omega
    · exact resting.modest j e' there
  · exact (names_update resting.here (fun _ => rfl) q).trans resting.path
  · exact entryAt_update_self resting.here (subLookups 1)

/-- One OPEN and one RELEASE of an inode. -/
structure Closes (c : Nat) (turns : Visit τ × Visit τ) : Prop where
  opens : ∃ r : Open, turns.1.request = .open r ∧ r.inode.toNat = c
  releases : ∃ r : Release, turns.2.request = .release r ∧ r.inode.toNat = c

theorem Resting.closed (resting : Resting fs q i e) {turns : Visit τ × Visit τ}
    (closes : Closes i turns) (counted : 1 ≤ e.lookups.toNat) :
    ∃ fs', Resting fs' q i (subLookups 1 e) ∧ ∀ rest,
      fs.serve (turns.1 :: turns.2 :: rest) = fs'.serve rest := by
  obtain ⟨⟨o, opening, _⟩, ⟨r, releasing, same⟩⟩ := closes
  obtain ⟨fs₁, opened, first⟩ :=
    serve_turn (v := turns.1) resting.wf resting.modest (by rw [opening]; rfl)
  have open₁ := resting.swept (opened.opens opening) opened.wf
  obtain ⟨fs₂, released, second⟩ :=
    serve_turn (v := turns.2) open₁.wf open₁.modest (by rw [releasing]; rfl)
  have asks : turns.2.request.forgetting = some (i, 1) := by
    rw [releasing, ← same]
    rfl
  have swept := released.released open₁.wf asks open₁.path open₁.here
  refine ⟨fs₂, (open₁.subLookup counted).1.swept swept released.wf, fun rest => ?_⟩
  rw [first, second]

theorem Resting.closed_all (resting : Resting fs q i e) {turns : List (Visit τ × Visit τ)}
    (closes : ∀ t ∈ turns, Closes i t) (many : e.lookups.toNat = turns.length) :
    ∃ fs', Resting fs' q i { e with lookups := 0 } ∧
      ∀ rest, fs.serve (turns.flatMap (fun t => [t.1, t.2]) ++ rest) = fs'.serve rest := by
  induction turns generalizing fs e with
  | nil =>
      have none : e.lookups = 0 := UInt64.toNat_inj.mp many
      refine ⟨fs, ?_, fun rest => ?_⟩
      · rw [← none]
        exact resting
      · rw [List.flatMap_nil, List.nil_append]
  | cons t turns ih =>
      rw [List.length_cons] at many
      obtain ⟨fs₁, next, first⟩ := resting.closed (closes t List.mem_cons_self) (by omega)
      have less := (resting.subLookup (by omega)).2
      obtain ⟨fs', last, rest⟩ :=
        ih next (fun t member => closes t (List.mem_cons_of_mem _ member)) (by omega)
      refine ⟨fs', last, fun more => ?_⟩
      rw [List.flatMap_cons, List.append_assoc, List.cons_append, List.cons_append, List.nil_append,
        first]
      exact rest more

/-- Unlinking a file without lookups deletes it. -/
theorem Resting.unlinked {d : List OsStr} {name : OsStr} (resting : Resting fs (d ++ [name]) i e)
    (none : e.lookups = 0) (kind : e.content.isDir = false)
    (asks : ∃ r : Unlink, v.request = .unlink r ∧ r.parent.toNat = e.parent ∧ r.fileName = name) :
    ∃ fs', fs.serve [v] = .ok fs' ∧ fs'.entryAt i = .none := by
  obtain ⟨r, asks, parent, rfl⟩ := asks
  obtain ⟨p, _, child⟩ := LinkTree.resolve_snoc_iff.mp resting.path
  have node := (resting.wf.sound.held p r.fileName i child).1.node
  rw [node_of_entry resting.here] at node
  have above : e.parent = p := congrArg LinkNode.up (Option.some.inj node)
  rw [tree_child, Option.bind_eq_some_iff] at child
  obtain ⟨u, holder, held⟩ := child
  have leaf : ∀ key, e.content.name? key = .none := by
    intro key
    cases content : e.content with
    | file data => rfl
    | dir files =>
        rw [content] at kind
        cases kind
  have allowed : fs.removable r.parent.toNat r.fileName false = some i :=
    removable_iff.mpr ⟨u, e, by rw [parent, above]; exact holder, held, resting.here,
      refusal_none kind leaf⟩
  obtain ⟨fs', visited, served⟩ := serve_turn (v := v) resting.wf resting.modest (by rw [asks]; rfl)
  obtain ⟨swept, ends⟩ := visited.removes (by rw [asks]; rfl) allowed
  refine ⟨fs', (served []).trans rfl, ?_⟩
  cases after : fs'.entryAt i with
  | none => rfl
  | some e' =>
      have counted := ends e' after
      obtain ⟨e₁, before, fades⟩ := swept.origin after
      have apart := (resting.wf.child_entry holder held).1
      rw [parent, above, entryAt_update_self
        ((entryAt_update_ne fs _ apart).trans resting.here)] at before
      cases before
      rw [fades.lookups] at counted
      change 1 < e.lookups + 1 at counted
      rw [none] at counted
      exact absurd counted (by decide)

variable {now : Duration} {vs : List (Visit τ)} {count : Nat → Nat}

/-- In every state that a fair run of fewer than 2^64 - 3 turns reaches: as many OPENs and
RELEASEs of a file as the server counts lookups of it, GETATTRs and cancelled LOOKUPs included,
and UNLINK deletes the file, although the kernel has it open and forgot none of them. -/
theorem closing_uses_lookups_up (fair : FairRun (Fs.new now) opening vs)
    (short : vs.length + 3 < 2 ^ 64)
    (served : (Fs.new now).noted (Fs.charge UInt64.toNat) opening vs = .ok (fs, count))
    {d : List OsStr} {p c : Nat} {name : OsStr} (dir : fs.names d = some (p, true))
    (file : fs.names (d ++ [name]) = some (c, false)) {turns : List (Visit τ × Visit τ)}
    (closes : ∀ t ∈ turns, Closes c t) (many : turns.length = count c) {opens unlinks : Visit τ}
    (opened : ∃ r : Open, opens.request = .open r ∧ r.inode.toNat = c)
    (removes : ∃ r : Unlink, unlinks.request = .unlink r ∧ r.parent.toNat = p ∧ r.fileName = name) :
    ∃ fs', fs.serve (turns.flatMap (fun t => [t.1, t.2]) ++ [opens, unlinks]) = .ok fs' ∧
      fs'.entryAt c = none := by
  obtain ⟨wf, a, _⟩ :=
    (fair.accounted (new_accounted now) (new_wf now) (by omega)).2 (fs, count) served
  obtain ⟨path, e, here, kind⟩ := names_iff.mp file
  obtain ⟨above, _⟩ := names_iff.mp dir
  have resting : Resting fs (d ++ [name]) c e := ⟨wf, a.modest (by omega), path, here⟩
  obtain ⟨fs₁, closed, first⟩ := resting.closed_all closes (by rw [a.counts c e here, many])
  obtain ⟨r, asks, _⟩ := opened
  obtain ⟨fs₂, visited, second⟩ :=
    serve_turn (v := opens) closed.wf closed.modest (by rw [asks]; rfl)
  have last := closed.swept (visited.opens asks) visited.wf
  have parent : e.parent = p := by
    obtain ⟨u, before, child⟩ := LinkTree.resolve_snoc_iff.mp path
    cases above.symm.trans before
    have node := (wf.sound.held p name c child).1.node
    rw [node_of_entry here] at node
    exact congrArg LinkNode.up (Option.some.inj node)
  rw [first, second]
  exact last.unlinked rfl kind (parent ▸ removes)

/-- A new file, opened and closed once, opened again and unlinked. -/
theorem closing_uses_lookups_up_once :
    ∃ fs fs', (Fs.new midnight).serve [quietly (.mknod ⟨⟨7⟩, 1, [97], 0, 0⟩)] = .ok fs ∧
      fs.serve ([(quietly (.open ⟨⟨8⟩, 2, 0, {}⟩), quietly (.release ⟨⟨9⟩, 2, 0, 0⟩))].flatMap
        (fun t => [t.1, t.2]) ++
        [quietly (.open ⟨⟨10⟩, 2, 0, {}⟩), quietly (.unlink ⟨⟨11⟩, 1, [97]⟩)]) = .ok fs' ∧
          fs'.entryAt 2 = none := by
  have fair : FairRun (Fs.new midnight) opening [quietly (.mknod ⟨⟨7⟩, 1, [97], 0, 0⟩)] := by
    refine ⟨?_, fun _ _ => trivial⟩
    intro i n asks
    cases asks
  have closes : ∀ t ∈ [(quietly (.open ⟨⟨8⟩, 2, 0, {}⟩), quietly (.release ⟨⟨9⟩, 2, 0, 0⟩))],
      Closes 2 t := by
    intro t member
    cases List.mem_singleton.mp member
    exact ⟨⟨_, rfl, rfl⟩, ⟨_, rfl, rfl⟩⟩
  have opened : ∃ r : Open, (quietly (.open ⟨⟨10⟩, 2, 0, {}⟩)).request = .open r ∧
      r.inode.toNat = 2 := ⟨_, rfl, rfl⟩
  have removes : ∃ r : Unlink, (quietly (.unlink ⟨⟨11⟩, 1, [97]⟩)).request = .unlink r ∧
      r.parent.toNat = 1 ∧
      r.fileName = [97] := ⟨_, rfl, rfl, rfl⟩
  obtain ⟨fs', served, gone⟩ :=
    closing_uses_lookups_up (d := []) fair (by decide) rfl rfl rfl closes rfl opened removes
  exact ⟨_, fs', rfl, served, gone⟩

/-! ### Forgetting several lookups at once -/

theorem serve_forget {r : Forget} (wf : Wf fs []) (here : fs.entryAt i = some e)
    (asks : v.request = .forget r) (inode : r.inode.toNat = i) :
    ∃ fs', Wf fs' [] ∧ Forgotten fs i e r.count fs' ∧ ∀ rest,
      fs.serve (v :: rest) = fs'.serve rest := by
  subst inode
  obtain ⟨fs', forgot, wf', forgotten⟩ := forget_live wf here r.count
  refine ⟨fs', wf', forgotten, fun rest => ?_⟩
  simp only [serve, asks, handle, handleForget, forgot, Except.ok_bind]
  rfl

/-- Forgetting the lookups of an entry without a name one by one deletes it. -/
theorem serve_forgets (wf : Wf fs []) (here : fs.entryAt i = some e) (unlinked : e.links = 0)
    {each : List (Visit τ)}
    (singles : ∀ v ∈ each, ∃ r : Forget, v.request = .forget r ∧ r.inode.toNat = i ∧ r.count = 1)
    (many : each.length = e.lookups.toNat) (some : 1 ≤ e.lookups.toNat) :
    ∃ fs', fs.serve each = .ok fs' ∧ fs'.entryAt i = none := by
  induction each generalizing fs e with
  | nil =>
      rw [List.length_nil] at many
      omega
  | cons v rest ih =>
      rw [List.length_cons] at many
      obtain ⟨r, asks, inode, one⟩ := singles v List.mem_cons_self
      obtain ⟨fs₁, wf₁, forgotten, first⟩ := serve_forget wf here asks inode
      have less : (e.lookups - 1).toNat = e.lookups.toNat - 1 :=
        UInt64.toNat_sub_of_le _ _ (UInt64.le_iff_toNat_le.mpr some)
      rw [one] at forgotten
      rw [first]
      cases forgotten with
      | kept why =>
          have more : 1 < e.lookups := why.resolve_right fun linked => linked unlinked
          have several : 1 < e.lookups.toNat := UInt64.lt_iff_toNat_lt.mp more
          refine ih wf₁ (entryAt_update_self here (subLookups 1)) unlinked
            (fun v member => singles v (List.mem_cons_of_mem _ member)) ?_ ?_
          · change rest.length = (e.lookups - 1).toNat
            omega
          · change 1 ≤ (e.lookups - 1).toNat
            omega
      | deleted _ last _ gone =>
          have few : e.lookups.toNat ≤ 1 :=
            Nat.not_lt.mp fun more => last (UInt64.lt_iff_toNat_lt.mpr more)
          have empty : rest = [] := List.length_eq_zero_iff.mp (by omega)
          rw [empty]
          exact ⟨fs₁, rfl, gone⟩

/-- In every state that a fair run of fewer than 2^64 - 3 turns reaches, for every entry without a
name of which the server counts two lookups or more, GETATTRs and cancelled LOOKUPs included:
forgetting them one by one deletes the entry, forgetting all of them in one request leaves it in
the table, with no lookup and no link. -/
theorem forgetting_at_once_leaks (fair : FairRun (Fs.new now) opening vs)
    (short : vs.length + 3 < 2 ^ 64)
    (served : (Fs.new now).noted (Fs.charge UInt64.toNat) opening vs = .ok (fs, count))
    (here : fs.entryAt i = some e) (unlinked : e.links = 0) (several : 2 ≤ count i) {once : Visit τ}
    {r : Forget} (asks : once.request = .forget r) (inode : r.inode.toNat = i)
    (complete : r.count.toNat = count i) {each : List (Visit τ)}
    (singles : ∀ v ∈ each, ∃ r : Forget, v.request = .forget r ∧ r.inode.toNat = i ∧ r.count = 1)
    (many : each.length = count i) :
    (∃ fs', fs.serve [once] = .ok fs' ∧ fs'.entryAt i = some { e with lookups := 0 }) ∧
      ∃ fs', fs.serve each = .ok fs' ∧ fs'.entryAt i = none := by
  obtain ⟨wf, a, _⟩ :=
    (fair.accounted (new_accounted now) (new_wf now) (by omega)).2 (fs, count) served
  have counts : e.lookups.toNat = count i := a.counts i e here
  have more : 1 < e.lookups := UInt64.lt_iff_toNat_lt.mpr (by rw [counts]; exact several)
  constructor
  · obtain ⟨fs', _, forgotten, first⟩ := serve_forget wf here asks inode
    refine ⟨fs', (first []).trans rfl, ?_⟩
    cases forgotten with
    | kept why =>
        have same : r.count = e.lookups := UInt64.toNat_inj.mp (complete.trans counts.symm)
        rw [entryAt_update_self here, subLookups, same, UInt64.sub_self]
    | deleted _ last => exact absurd more last
  · exact serve_forgets wf here unlinked singles (many.trans counts.symm) (by omega)

/-- A directory that was looked up once more and removed. -/
def lookedUpAndRemoved : List (Visit (UInt64 × UInt32)) :=
  [quietly (.mkdir ⟨⟨7⟩, 1, [97], 0⟩), quietly (.lookup ⟨⟨8⟩, 1, [97]⟩),
    quietly (.rmdir ⟨⟨9⟩, 1, [97]⟩)]

theorem forgetting_at_once_leaks_rmdir :
    ∃ fs fs' e, (Fs.new midnight).serve lookedUpAndRemoved = .ok fs ∧
      fs.serve [quietly (.forget ⟨⟨10⟩, 2, 2⟩)] = .ok fs' ∧ fs'.entryAt 2 = some e := by
  have fair : FairRun (Fs.new midnight) opening lookedUpAndRemoved := by
    refine ⟨?_, fun _ _ => ⟨?_, fun _ _ => ⟨?_, fun _ _ => trivial⟩⟩⟩ <;>
    · intro i n asks
      cases asks
  have asks : (quietly (.forget ⟨⟨10⟩, 2, 2⟩)).request = .forget ⟨⟨10⟩, 2, 2⟩ := rfl
  have singles : ∀ v ∈ [quietly (.forget ⟨⟨10⟩, 2, 1⟩), quietly (.forget ⟨⟨11⟩, 2, 1⟩)],
      ∃ r : Forget, v.request = .forget r ∧ r.inode.toNat = 2 ∧ r.count = 1 := by
    intro v member
    rcases List.mem_pair.mp member with rfl | rfl
    · exact ⟨_, rfl, rfl, rfl⟩
    · exact ⟨_, rfl, rfl, rfl⟩
  obtain ⟨⟨fs', served, there⟩, _⟩ := forgetting_at_once_leaks fair (by decide) rfl rfl rfl
    (by decide +kernel) asks rfl (by decide +kernel) singles (by decide +kernel)
  exact ⟨_, fs', _, rfl, served, there⟩

/-! ### What the kernel has -/

/-- The lookups of an inode that the kernel has, and those the server counts besides. -/
structure Lookups where
  held : Nat
  excess : Nat

/-- The kernel takes the entry that a reply brings. -/
def Request.grants (env : Env τ) (r : Request) (stat : Stat) (host : Host) : Bool :=
  match r with
  | .lookup r => decide ((r.reply (toEntryParam env.forever stat) host).1 = .ok ())
  | .mkdir r => decide ((r.reply (toEntryParam env.forever stat) host).1 = .ok ())
  | .mknod r => decide ((r.reply (toEntryParam env.forever stat) host).1 = .ok ())
  | .create r => decide ((r.reply (toEntryParam env.forever stat) 0 host).1 = .ok ())
  | _ => false

def Lookups.add (l : Lookups) (granted : Bool) : Lookups :=
  if granted then { l with held := l.held + 1 } else { l with excess := l.excess + 1 }

/-- What a turn makes of the lookups of an inode. GETATTR grants none, and nor does a reply that
fails; only CREATE takes back what was not granted. -/
def Fs.grant (fs : Fs) (v : Visit τ) (count : Nat → Lookups) (i : Nat) : Lookups :=
  if fs.shows v.request = some i then
    (count i).add ((fs.entryAt i).any fun e => v.request.grants v.env e.stat v.host)
  else
    match v.request with
    | .forget r =>
        if r.inode.toNat = i then { count i with held := (count i).held - r.count.toNat }
        else count i
    | request =>
        match request.creation with
        | none => count i
        | some c =>
            if i = fs.takeInode.1 ∧ fs.Vacant c.parent c.name then
              let new := born fs.takeInode.1 c.parent c.mode c.content v.env.now
              if request.untaken v.env new.stat v.host then ⟨0, 0⟩
              else (⟨0, 0⟩ : Lookups).add (request.grants v.env new.stat v.host)
            else count i

/-- Nothing is released, and the kernel forgets no more than it has. -/
def CoveredRun (fs : Fs) (count : Nat → Lookups) : List (Visit τ) → Prop
  | [] => True
  | v :: rest => (∀ r, v.request ≠ .release r) ∧
      (∀ r : Forget, v.request = .forget r →
        1 ≤ r.count.toNat ∧ r.count.toNat ≤ (count r.inode.toNat).held) ∧
      ∀ out, handle v.env fs v.request v.host = .ok out →
        CoveredRun out.2.1 (fs.grant v count) rest

/-- The kernel has the root. -/
def granted (i : Nat) : Lookups := if i = ROOT_ID then ⟨1, 0⟩ else ⟨0, 0⟩

theorem Lookups.add_total (l : Lookups) (granted : Bool) :
    (l.add granted).held + (l.add granted).excess = l.held + l.excess + 1 := by
  cases granted with
  | true => simp only [add, if_true]; omega
  | false => simp only [add]; simp; omega

theorem Lookups.add_excess (l : Lookups) (granted : Bool) : l.excess ≤ (l.add granted).excess := by
  cases granted with
  | true => exact le_rfl
  | false => exact Nat.le_succ _

/-- The server counts what the kernel has and the excess. -/
theorem grant_total {lookups : Nat → Lookups} (unreleased : ∀ r, v.request ≠ .release r)
    (covered : ∀ r : Forget, v.request = .forget r →
      1 ≤ r.count.toNat ∧ r.count.toNat ≤ (lookups r.inode.toNat).held)
    (same : ∀ i, count i = (lookups i).held + (lookups i).excess) (i : Nat) :
    fs.charge UInt64.toNat v count i = (fs.grant v lookups i).held +
      (fs.grant v lookups i).excess := by
  by_cases shows : fs.shows v.request = some i
  · rw [charge_shown shows, Fs.grant, if_pos shows, Lookups.add_total, same]
  · have kept : v.request.forgetting = none → v.request.creation = none →
        fs.charge UInt64.toNat v count i = count i := by
      intro forgetting creation
      refine charge_none shows ?_ ?_
      · intro n asks
        cases forgetting.symm.trans asks
      · intro c asks
        cases creation.symm.trans asks
    rw [Fs.grant, if_neg shows]
    split
    · next r asks =>
        split
        · next same =>
            subst same
            have asked : v.request.forgetting = some (r.inode.toNat, r.count) := by rw [asks]; rfl
            obtain ⟨_, some⟩ := covered r asks
            rw [charge_forgot shows asked, same]
            simp only
            omega
        · next other =>
            have elsewhere : ∀ n, v.request.forgetting ≠ some (i, n) := by
              intro n asked
              rw [asks] at asked
              exact other (congrArg Prod.fst (Option.some.inj asked))
            rw [charge_none shows elsewhere (fun c asked => by rw [asks] at asked; cases asked),
              same]
    · next kind =>
        have forgetting : v.request.forgetting = none := by
          cases asks : v.request with
          | forget r => exact absurd asks (kind r)
          | release r => exact absurd asks (unreleased r)
          | _ => rfl
        cases made : v.request.creation with
        | none => exact (kept forgetting made).trans (same i)
        | some c =>
            simp only
            split
            · next new =>
                rw [charge_made shows forgetting made new.2 new.1]
                split
                · rfl
                · exact (Lookups.add_total ⟨0, 0⟩ _).symm
            · next old =>
                rw [← same, charge_none shows
                  (fun n asked => by rw [forgetting] at asked; cases asked)]
                intro c' asked first vacant
                cases made.symm.trans asked
                exact old ⟨first, vacant⟩

/-- Only a new entry under the same inode takes an excess back. -/
theorem grant_excess {lookups : Nat → Lookups} (wf : Wf fs []) (here : fs.entryAt i = some e) :
    (lookups i).excess ≤ (fs.grant v lookups i).excess := by
  have old : ∀ c : Creation, ¬ (i = fs.takeInode.1 ∧ fs.Vacant c.parent c.name) := by
    rintro c ⟨rfl, _⟩
    rw [(takeInode_fresh wf).1] at here
    cases here
  rw [Fs.grant]
  split
  · exact Lookups.add_excess _ _
  · split
    · split
      · exact le_rfl
      · exact le_rfl
    · split
      · exact le_rfl
      · rw [if_neg (old _)]

variable {lookups lookups' : Nat → Lookups} {turns : Nat}

/-- What a covered run keeps: the counts, and every excess. -/
theorem CoveredRun.accounted (covered : CoveredRun fs lookups vs)
    (same : ∀ i, count i = (lookups i).held + (lookups i).excess) (a : Accounted fs count turns)
    (wf : Wf fs []) (room : turns + vs.length + 2 < 2 ^ 64)
    (served : fs.noted Fs.grant lookups vs = .ok (fs', lookups')) :
    ∃ count', Wf fs' [] ∧ Accounted fs' count' (turns + vs.length) ∧
      (∀ i, count' i = (lookups' i).held + (lookups' i).excess) ∧
      (∀ i, 0 < (lookups i).excess → 0 < (lookups' i).excess) ∧
      ((∀ v ∈ vs, v.request.Sparing) → fs.Tidy → fs'.Tidy) := by
  induction vs generalizing fs lookups count turns with
  | nil =>
      cases served
      exact ⟨count, wf, a, same, fun _ some => some, fun _ tidy => tidy⟩
  | cons v rest ih =>
      rw [List.length_cons] at room ⊢
      obtain ⟨unreleased, forgets, later⟩ := covered
      simp only [noted] at served
      cases handled : handle v.env fs v.request v.host with
      | error crash =>
          rw [handled] at served
          cases served
      | ok out =>
          rw [handled] at served
          have visited := handle_visited wf handled
          have fair : Fair count v.request := by
            intro i n asks
            cases request : v.request with
            | forget r =>
                obtain ⟨some, covered⟩ := forgets r request
                rw [request] at asks
                cases asks
                have total := same r.inode.toNat
                exact ⟨some, by omega⟩
            | release r => exact absurd request (unreleased r)
            | _ =>
                rw [request] at asks
                cases asks
          obtain ⟨count', wf', a', same', grows, tidies⟩ := ih (later out handled)
            (grant_total unreleased forgets same) (a.turn wf (by omega) fair visited) visited.wf
            (by omega) served
          rw [show turns + 1 + rest.length = turns + (rest.length + 1) by omega] at a'
          refine ⟨count', wf', a', same', ?_, ?_⟩
          · intro i some
            obtain ⟨e, here⟩ := a.lives i (by rw [same]; omega)
            exact grows i (Nat.lt_of_lt_of_le some (grant_excess wf here))
          · intro sparing tidy
            exact tidies (fun v member => sparing v (List.mem_cons_of_mem _ member))
              (visited.tidy tidy (a.modest (by omega)) (sparing v List.mem_cons_self))

theorem CoveredRun.split {rest : List (Visit τ)} (covered : CoveredRun fs lookups (vs ++ rest))
    (served : fs.noted Fs.grant lookups vs = .ok (fs', lookups')) :
    CoveredRun fs lookups vs ∧ CoveredRun fs' lookups' rest := by
  induction vs generalizing fs lookups with
  | nil =>
      cases served
      exact ⟨trivial, covered⟩
  | cons v vs ih =>
      obtain ⟨unreleased, forgets, later⟩ := covered
      simp only [noted] at served
      cases handled : handle v.env fs v.request v.host with
      | error crash =>
          rw [handled] at served
          cases served
      | ok out =>
          have last : ∀ out', handle v.env fs v.request v.host = .ok out' → out' = out := by
            intro out' again
            cases handled.symm.trans again
            rfl
          rw [handled] at served
          obtain ⟨first, second⟩ := ih (later out handled) served
          refine ⟨⟨unreleased, forgets, fun out' again => ?_⟩, second⟩
          cases last out' again
          exact first

theorem CoveredRun.cons {rest : List (Visit τ)} (unreleased : ∀ r, v.request ≠ .release r)
    (covered : ∀ r : Forget, v.request = .forget r →
      1 ≤ r.count.toNat ∧ r.count.toNat ≤ (lookups r.inode.toNat).held)
    {out : Except ServerError Unit × Fs × Host}
    (handled : handle v.env fs v.request v.host = .ok out)
    (later : CoveredRun out.2.1 (fs.grant v lookups) rest) : CoveredRun fs lookups (v :: rest) := by
  refine ⟨unreleased, covered, fun out' again => ?_⟩
  cases handled.symm.trans again
  exact later

end turns
end ProxmoxFuse
