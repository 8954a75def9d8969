import ProxmoxFuse.Lookups
import ProxmoxFuse.SparseWrites

/-!
# What the files hold

Seen from outside a file is a sequence of bytes: empty when it is created, changed
by the WRITEs that name its inode and by nothing else, and read back by READs.
Runs of the server keep to this as long as no WRITE starts in front of the block
that its file was first written in.
-/
namespace ProxmoxFuse
open Fs

def FsContent.data? : FsContent → Option BlockFile
  | .file data => some data
  | .dir _ => none

theorem FsContent.mapFiles_data (content : FsContent) (f : Files → Files) :
    (content.mapFiles f).data? = content.data? := by
  cases content with
  | file data => rfl
  | dir files => rfl

/-- The file under an inode. -/
def Fs.dataAt (fs : Fs) (i : Nat) : Option BlockFile := (fs.entryAt i).bind (·.content.data?)

section turns
variable {τ : Type} [Timeout τ] {fs mid fs' : Fs} {v : Visit τ} {i j : Nat} {file : BlockFile}

theorem dataAt_iff :
    fs.dataAt i = some file ↔ ∃ e, fs.entryAt i = some e ∧ e.content = .file file := by
  simp only [dataAt, Option.bind_eq_some_iff]
  refine exists_congr fun e => and_congr_right fun _ => ?_
  cases e.content with
  | file data => simp [FsContent.data?]
  | dir files => simp [FsContent.data?]

theorem dataAt_update {g : FsEntry → FsEntry} (keeps : ∀ e, (g e).content.data? = e.content.data?) :
    (fs.update j g).dataAt i = fs.dataAt i := by
  simp only [dataAt, entryAt_update]
  split
  · rw [Option.bind_map]
    refine congrArg _ (funext fun e => ?_)
    exact keeps e
  · rfl

theorem Fs.Fades.data {e e' : FsEntry} (fades : Fades e (some e')) :
    e'.content.data? = e.content.data? := by
  rw [fades.kept]

/-- What is collected takes its data with it, what stays keeps it. -/
theorem Fs.Swept.dataAt (swept : Swept mid fs') (there : fs'.dataAt i = some file) :
    mid.dataAt i = some file := by
  obtain ⟨e', after, kind⟩ := Option.bind_eq_some_iff.mp there
  obtain ⟨e, before, fades⟩ := swept.origin after
  rw [Fs.dataAt, before, ← kind]
  exact fades.data.symm

theorem Fs.Forgotten.dataAt {e : FsEntry} {n : UInt64} (forgotten : Forgotten fs j e n mid)
    (there : mid.dataAt i = some file) : fs.dataAt i = some file := by
  cases forgotten with
  | kept why => exact (dataAt_update (g := subLookups n) fun _ => rfl).symm.trans there
  | deleted _ last unlinked gone stays away paths files =>
      obtain ⟨e', after, kind⟩ := Option.bind_eq_some_iff.mp there
      have other : i ≠ j := by
        rintro rfl
        rw [gone] at after
        cases after
      cases before : fs.entryAt i with
      | none =>
          rw [away i before] at after
          cases after
      | some e₀ =>
          have fades := (stays i e₀ other before).fades
          rw [after] at fades
          rw [Fs.dataAt, before, ← kind]
          exact fades.data.symm

theorem creation_data {r : Request} {c : Creation} (asks : r.creation = some c)
    (kind : c.content.data? = some file) :
    file = emptyFile := by
  cases r with
  | mkdir r =>
      cases asks
      cases kind
  | mknod r =>
      cases asks
      exact (Option.some.inj kind).symm
  | create r =>
      cases asks
      exact (Option.some.inj kind).symm
  | _ => cases asks

theorem Fs.Linked.dataAt {p : Nat} {name : OsStr} {new : FsEntry}
    (linked : Linked fs p name j new mid) (there : mid.dataAt i = some file) :
    (i = j ∧ new.content.data? = some file) ∨ fs.dataAt i = some file := by
  simp only [Fs.dataAt, linked.entries] at there ⊢
  split at there
  · next same => exact .inl ⟨same, there⟩
  · split at there
    · rw [Option.bind_map] at there
      refine .inr (Eq.trans (congrArg _ (funext fun e => ?_)) there)
      exact (e.content.mapFiles_data _).symm
    · exact .inr there

/-- Where the file that is there after a turn comes from. -/
inductive Inked (fs : Fs) (v : Visit τ) (i : Nat) (file : BlockFile) : Prop where
  | kept (before : fs.dataAt i = some file)
      (other : ∀ r : Write, v.request = .write r → r.inode.toNat ≠ i)
      (old : ∀ c, v.request.creation = some c → fs.Vacant c.parent c.name → i ≠ fs.takeInode.1)
  | made (c : Creation) (asks : v.request.creation = some c) (vacant : fs.Vacant c.parent c.name)
      (new : i = fs.takeInode.1) (empty : file = emptyFile)
  | wrote (r : Write) (data : Bytes) (old : BlockFile) (asks : v.request = .write r)
      (inode : r.inode.toNat = i) (given : r.data v.env.heap = .ok data)
      (before : fs.dataAt i = some old)
      (written : old.write v.env.depth data r.offset.toNat = .ok file)

omit [Timeout τ] in
theorem Inked.kept_of {r : Request} (same : v.request = r) (creation : r.creation = none)
    (other : ∀ w : Write, r ≠ .write w) (before : fs.dataAt i = some file) : Inked fs v i file := by
  refine .kept before ?_ ?_
  · intro w asks
    exact absurd (same.symm.trans asks) (other w)
  · intro c asks
    rw [same, creation] at asks
    cases asks

omit [Timeout τ] in
theorem made_inked (wf : Wf fs []) {c : Creation} {now : Duration}
    (asks : v.request.creation = some c) (vacant : fs.Vacant c.parent c.name)
    (other : ∀ w : Write, v.request ≠ .write w)
    (linked : Linked fs c.parent c.name fs.takeInode.1
      (born fs.takeInode.1 c.parent c.mode c.content now) mid) (there :
      mid.dataAt i = some file) : Inked fs v i file := by
  rcases linked.dataAt there with ⟨new, kind⟩ | before
  · exact .made c asks vacant new (creation_data asks kind)
  · refine .kept before (fun w same => absurd same (other w)) ?_
    rintro c' _ _ rfl
    rw [Fs.dataAt, (takeInode_fresh wf).1] at before
    cases before

/-- A turn without a WRITE. -/
theorem Visited.inked (visited : Visited fs v fs') (wf : Wf fs [])
    (other : ∀ w : Write, v.request ≠ .write w) (there : fs'.dataAt i = some file) :
    Inked fs v i file := by
  obtain ⟨env, request, host⟩ := v
  obtain ⟨mid, _, r', c, effect, swept, _⟩ := visited
  have there := swept.dataAt there
  cases effect with
  | shown _ t e shows here =>
      rw [dataAt_update (g := addLookup) fun _ => rfl] at there
      exact .kept_of rfl (shows_kind shows).2.1 other there
  | restated r e here =>
      rw [dataAt_update (g := restat r env.now) fun _ => rfl] at there
      exact .kept_of rfl rfl other there
  | forgot _ j n e _ asks here forgotten =>
      exact .kept_of rfl (forgetting_kind fs asks).2.1 other (forgotten.dataAt there)
  | forgotNothing r gone => exact .kept_of rfl rfl other there
  | made _ c mid asks vacant _ linked taken =>
      rw [dataAt_update (g := addLookup) fun _ => rfl] at there
      exact made_inked wf asks vacant other linked there
  | madeUntaken _ c _ asks vacant _ linked untaken =>
      exact made_inked wf asks vacant other linked there
  | removed _ p name isRmdir c _ asks allowed removed ends =>
      have before := removed.dataAt there
      rw [dataAt_update (g := subLink) fun _ => rfl,
        dataAt_update (g := disown name) fun e => e.content.mapFiles_data _] at before
      exact .kept_of rfl (removal_kind fs asks).2.2 other before
  | opened r e here => exact .kept_of rfl rfl other there
  | wrote r data e old new size given here kind written sized => exact absurd rfl (other r)
  | gave r e file got buf here kind done => exact .kept_of rfl rfl other there
  | listed r r' e files state stop here dir added => exact .kept_of rfl rfl other there
  | refused r r' error why =>
      refine .kept there (fun w same => absurd same (other w)) ?_
      intro c asks vacant
      exact absurd vacant (why.creates c asks)
  | unknown _ unhandled => exact .kept_of rfl (unhandled_kind fs unhandled).2.2.1 other there

/-- A WRITE, which the effect of a turn says less about than its handler. -/
theorem handleWrite_inked {w : Write} (wf : Wf fs []) (asks : v.request = .write w)
    {result : Except ServerError Unit} {host : Host}
    (handled : handle v.env fs v.request v.host = .ok (result, fs', host))
    (there : fs'.dataAt i = some file) : Inked fs v i file := by
  have none : ∀ c, v.request.creation = some c → fs.Vacant c.parent c.name →
      i ≠ fs.takeInode.1 := by
    intro c creates
    rw [asks] at creates
    cases creates
  rw [asks] at handled
  simp only [handle, handleWrite] at handled
  cases given : w.data v.env.heap with
  | error fault =>
      simp only [writeData, given] at handled
      cases handled
  | ok data =>
      have view := write_spec wf v.env.depth w.inode.toNat data w.offset.toNat
      simp only [writeData, given, Except.ok_bind] at handled
      generalize fs.write v.env.depth w.inode.toNat data w.offset.toNat = out at view handled
      cases view with
      | stored e old new size fs₁ here kind written sized wf' swept =>
          simp only [Except.ok_bind, replied] at handled
          cases handled
          have after := swept.dataAt there
          by_cases same : w.inode.toNat = i
          · subst same
            have new' : (fs.update w.inode.toNat (stored new size)).dataAt w.inode.toNat =
                some new := by
              rw [Fs.dataAt, entryAt_update_self here]
              rfl
            cases new'.symm.trans after
            exact .wrote w data old asks rfl given (dataAt_iff.mpr ⟨e, here, kind⟩) written
          · refine .kept ?_ ?_ none
            · rwa [Fs.dataAt, entryAt_update, if_neg same] at after
            · intro w' same'
              cases asks.symm.trans same'
              exact same
      | refused error fs₁ dirs wf' swept =>
          have same : fs₁ = fs' := by
            simp only [Except.ok_bind, failWith] at handled
            cases stops : orStop (Request.ioFail (.write w) error v.host).1 with
            | error crash =>
                rw [stops] at handled
                cases handled
            | ok result' =>
                rw [stops] at handled
                cases handled
                rfl
          subst same
          have before := swept.dataAt there
          refine .kept before ?_ none
          intro w' asks'
          cases asks.symm.trans asks'
          rintro rfl
          obtain ⟨e, here, kind⟩ := dataAt_iff.mp before
          have dir := dirs e here
          rw [kind] at dir
          cases dir
      | crashed e old crash here kind stuck => cases handled

theorem handle_inked (wf : Wf fs []) {result : Except ServerError Unit} {host : Host}
    (handled : handle v.env fs v.request v.host = .ok (result, fs', host))
    (there : fs'.dataAt i = some file) :
    Inked fs v i file := by
  by_cases writes : ∃ w : Write, v.request = .write w
  · obtain ⟨w, asks⟩ := writes
    exact handleWrite_inked wf asks handled there
  · exact (handle_visited wf handled).inked wf (fun w same => writes ⟨w, same⟩) there

end turns

/-! ### Flat files -/

/-- A file as its WRITEs leave it, and where the block begins that the first of them fell into. -/
structure Flat where
  start : Option Nat
  bytes : Bytes

def Flat.empty : Flat := ⟨none, []⟩

def Flat.write (flat : Flat) (offset : Nat) (data : Bytes) : Flat where
  start := some (flat.start.getD (clearMask offset 8191))
  bytes := Overlay.write 0 flat.bytes offset data

structure Holds (file : BlockFile) (flat : Flat) : Prop where
  plain : file.Plain
  mask : file.blockMask = 8191
  starts : file.extents.map (·.offset) = flat.start.toList
  bytes : file.content = flat.bytes

theorem emptyFile_holds : Holds emptyFile Flat.empty := by
  obtain ⟨plain, none⟩ := BlockFile.new_plain (k := 12) (by decide) new_emptyFile
  exact ⟨plain, rfl, rfl, BlockFile.content_nil none⟩

theorem Holds.write {file file' : BlockFile} {flat : Flat} {offset depth : Nat} {data : Bytes}
    (holds : Holds file flat) (forward : ∀ s ∈ flat.start, s ≤ offset)
    (written : file.write depth data offset = .ok file') :
    Holds file' (flat.write offset data) := by
  have start : ∀ e ∈ file.extents, flat.start = some e.offset := by
    intro e member
    have there : e.offset ∈ flat.start.toList := by
      rw [← holds.starts]
      exact List.mem_map_of_mem member
    exact Option.mem_toList.mp there
  have behind : ∀ e ∈ file.extents, e.offset ≤ offset := fun e member => forward _ (start e member)
  cases depth with
  | zero => cases written
  | succ depth =>
      obtain ⟨e, same, plain, content, place⟩ :=
        BlockFile.write_content holds.plain behind
          (BlockFile.takes_of_write holds.plain behind written) depth
      cases same.symm.trans written
      refine ⟨plain, holds.mask, ?_, ?_⟩
      · rcases place with ⟨none, first⟩ | ⟨x, member, first⟩
        · have unset : flat.start = .none := by
            have starts := holds.starts
            rw [none] at starts
            exact Option.toList_eq_nil_iff.mp starts.symm
          simp only [Flat.write, unset, List.map_cons, List.map_nil, first, holds.mask,
            Option.getD_none, Option.toList_some]
        · simp only [Flat.write, start x member, List.map_cons, List.map_nil, first,
            Option.getD_some, Option.toList_some]
      · rw [content, holds.bytes]
        rfl

/-! ### Runs -/

section runs
variable {τ : Type} [Timeout τ] {fs fs' : Fs} {v : Visit τ} {i : Nat} {file : BlockFile}
  {store store' : Nat → Flat}

/-- What a turn writes to an inode, and where. -/
def Visit.writes (v : Visit τ) (i : Nat) : Option (Nat × Bytes) :=
  match v.request with
  | .write r =>
      if r.inode.toNat = i then (r.data v.env.heap).toOption.map fun data => (r.offset.toNat, data)
      else none
  | _ => none

/-- The flat files after a turn. -/
def Fs.ink (fs : Fs) (v : Visit τ) (store : Nat → Flat) (i : Nat) : Flat :=
  if v.request.creation.any fun c => decide (i = fs.takeInode.1 ∧ fs.Vacant c.parent c.name) then
    Flat.empty
  else ((v.writes i).map fun w => (store i).write w.1 w.2).getD (store i)

def blank (_ : Nat) : Flat := Flat.empty

/-- No WRITE starts in front of the block that its file was first written in. -/
def ForwardRun (fs : Fs) (store : Nat → Flat) : List (Visit τ) → Prop
  | [] => True
  | v :: rest => (∀ i w, v.writes i = some w → ∀ s ∈ (store i).start, s ≤ w.1) ∧
      ∀ out, handle v.env fs v.request v.host = .ok out → ForwardRun out.2.1 (fs.ink v store) rest

omit [Timeout τ] in
theorem ink_unmade
    (unmade : ∀ c, v.request.creation = some c → fs.Vacant c.parent c.name → i ≠ fs.takeInode.1) :
    fs.ink v store i = ((v.writes i).map fun w => (store i).write w.1 w.2).getD (store i) := by
  refine if_neg ?_
  rw [Bool.not_eq_true, Option.any_eq_false]
  intro c asks
  simp only [decide_eq_false_iff_not]
  rintro ⟨new, vacant⟩
  exact unmade c asks vacant new

omit [Timeout τ] in
theorem Inked.holds (inked : Inked fs v i file)
    (forward : ∀ w, v.writes i = some w → ∀ s ∈ (store i).start, s ≤ w.1)
    (holds : ∀ file, fs.dataAt i = some file → Holds file (store i)) :
    Holds file (fs.ink v store i) := by
  cases inked with
  | kept before other old =>
      have unwritten : v.writes i = none := by
        simp only [Visit.writes]
        split
        · next r asks => exact if_neg (other r asks)
        · rfl
      rw [ink_unmade old, unwritten]
      exact holds file before
  | made c asks vacant new empty =>
      have made : (v.request.creation.any fun c =>
          decide (i = fs.takeInode.1 ∧ fs.Vacant c.parent c.name)) = true := by
        rw [asks, Option.any_some]
        exact decide_eq_true ⟨new, vacant⟩
      rw [Fs.ink, made, empty]
      exact emptyFile_holds
  | wrote r data old asks inode given before written =>
      have writes : v.writes i = some (r.offset.toNat, data) := by
        simp only [Visit.writes, asks, inode, if_true, given]
        rfl
      have unmade : ∀ c, v.request.creation = some c → fs.Vacant c.parent c.name →
          i ≠ fs.takeInode.1 := by
        intro c creates
        rw [asks] at creates
        cases creates
      rw [ink_unmade unmade, writes]
      exact (holds old before).write (forward _ writes) written

theorem ForwardRun.holds {vs : List (Visit τ)} (forward : ForwardRun fs store vs) (wf : Wf fs [])
    (holds : ∀ i file, fs.dataAt i = some file → Holds file (store i))
    (served : fs.noted Fs.ink store vs = .ok (fs', store')) :
    Wf fs' [] ∧ ∀ i file, fs'.dataAt i = some file → Holds file (store' i) := by
  induction vs generalizing fs store with
  | nil =>
      cases served
      exact ⟨wf, holds⟩
  | cons v rest ih =>
      obtain ⟨first, later⟩ := forward
      simp only [Fs.noted] at served
      cases handled : handle v.env fs v.request v.host with
      | error crash =>
          rw [handled] at served
          cases served
      | ok out =>
          rw [handled] at served
          refine ih (later out handled) (handle_visited wf handled).wf ?_ served
          intro i file there
          exact (handle_inked wf handled there).holds (first i) (holds i)

/-! ### Reading back -/

/-- Where a file can be read. -/
def Flat.Readable (flat : Flat) (offset size : Nat) : Prop :=
  offset ≤ flat.bytes.length ∧ offset + size < 2 ^ 64

theorem Holds.read {flat : Flat} {offset size : Nat} (holds : Holds file flat)
    (readable : flat.Readable offset size) :
    ∃ got buf, file.read (List.replicate size 0) offset = .ok (got, buf) ∧
      buf.take got = (flat.bytes.drop offset).take size := by
  obtain ⟨within, word⟩ := readable
  rw [← holds.bytes] at within
  have len : (List.replicate size (0 : UInt8)).length = size := List.length_replicate
  refine ⟨_, _, BlockFile.read_content holds.plain.orderly (List.replicate size 0)
    (by rw [len]; exact word) within
    (holds.plain.noGap within), ?_⟩
  rw [len, ← holds.bytes]
  refine List.take_left' ?_
  rw [List.length_take, List.length_drop]

theorem Holds.unreadable {flat : Flat} {offset size : Nat} (holds : Holds file flat)
    (unreadable : ¬ flat.Readable offset size) :
    file.read (List.replicate size 0) offset = .error .panic := by
  by_cases within : offset ≤ flat.bytes.length
  · have past : ¬ offset + (List.replicate size (0 : UInt8)).length < 2 ^ 64 := by
      rw [List.length_replicate]
      exact fun word => unreadable ⟨within, word⟩
    unfold BlockFile.read
    simp only [checkWord, past, if_false]
    rfl
  · refine BlockFile.read_past (BlockFile.size_content holds.plain.orderly) _ ?_
    rw [holds.bytes]
    omega

/-- What READ makes of a file. -/
theorem handleRead_holds {flat : Flat} {r : Read} (wf : Wf fs [])
    (there : fs.dataAt r.inode.toNat = some file) (holds : Holds file flat) (host : Host) :
    (flat.Readable r.offset.toNat (min r.size (1024 * 1024)) → ∃ fs',
      handleRead fs r host = replied fs'
      (r.reply ((flat.bytes.drop r.offset.toNat).take (min r.size (1024 * 1024))) host)) ∧
    (¬ flat.Readable r.offset.toNat (min r.size (1024 * 1024)) →
      handleRead fs r host = .error .panic) := by
  obtain ⟨e, here, kind⟩ := dataAt_iff.mp there
  have view :=
    read_spec wf r.inode.toNat (List.replicate (min r.size (1024 * 1024)) 0) r.offset.toNat
  simp only [handleRead]
  generalize fs.read r.inode.toNat (List.replicate (min r.size (1024 * 1024)) 0) r.offset.toNat =
    out at view
  cases view with
  | read e' file' got fs' here' kind' done wf' swept =>
      cases here.symm.trans here'
      cases kind.symm.trans kind'
      constructor
      · intro readable
        obtain ⟨n, buf, same, slice⟩ := holds.read readable
        cases same.symm.trans done
        refine ⟨fs', ?_⟩
        rw [← slice]
        rfl
      · intro unreadable
        cases (holds.unreadable unreadable).symm.trans done
  | refused error fs' dirs wf' swept =>
      have dir := dirs e here
      rw [kind] at dir
      cases dir
  | crashed e' file' crash here' kind' stuck =>
      cases here.symm.trans here'
      cases kind.symm.trans kind'
      constructor
      · intro readable
        obtain ⟨n, buf, same, _⟩ := holds.read readable
        cases same.symm.trans stuck
      · intro unreadable
        cases (holds.unreadable unreadable).symm.trans stuck
        rfl

variable {now : Duration} {vs : List (Visit τ)}

theorem ForwardRun.new_holds (forward : ForwardRun (Fs.new now) blank vs)
    (served : (Fs.new now).noted Fs.ink blank vs = .ok (fs, store)) :
    Wf fs [] ∧ ∀ i file, fs.dataAt i = some file → Holds file (store i) := by
  refine forward.holds (new_wf now) ?_ served
  intro i file there
  obtain ⟨e, here, kind⟩ := dataAt_iff.mp there
  rw [new_entryAt] at here
  split at here
  · cases here
    cases kind
  · cases here

/-- After every run without a WRITE in front of a file's first block, a READ of a file is answered
with what the WRITEs to its inode since its creation left there, whatever else happened, and crashes
behind the end. -/
theorem reads_return_what_was_written (forward : ForwardRun (Fs.new now) blank vs)
    (served : (Fs.new now).noted Fs.ink blank vs = .ok (fs, store))
    (there : fs.dataAt i = some file) (env : Env τ) (host : Host) (r : Read)
    (inode : r.inode.toNat = i) :
    ((store i).Readable r.offset.toNat (min r.size (1024 * 1024)) →
      ∃ fs', handle env fs (.read r) host = replied fs'
        (r.reply (((store i).bytes.drop r.offset.toNat).take (min r.size (1024 * 1024))) host)) ∧
    (¬ (store i).Readable r.offset.toNat (min r.size (1024 * 1024)) →
      handle env fs (.read r) host = .error .panic) := by
  obtain ⟨wf, all⟩ := forward.new_holds served
  subst inode
  exact handleRead_holds wf there (all _ file there) host

/-- A new file with three bytes. -/
def threeBytes : List (Visit (UInt64 × UInt32)) :=
  [quietly (.mknod ⟨⟨7⟩, 1, [97], 0, 0⟩),
    { quietly (.write ⟨⟨8⟩, 2, 0, 0, 3, 0, 0⟩) with
      env := ⟨midnight, 8, (0, 0), ⟨fun _ => [1, 2, 3], fun _ => 1, 1⟩⟩ }]

theorem reads_return_what_was_written_two :
    ∃ fs store fs', (Fs.new midnight).noted Fs.ink blank threeBytes = .ok (fs, store) ∧
      handle (quietly (.read ⟨⟨9⟩, 2, 0, 2, 1⟩)).env fs (.read ⟨⟨9⟩, 2, 0, 2, 1⟩)
        ⟨fun _ => .ok, 4096, []⟩ =
        replied fs' ((⟨⟨9⟩, 2, 0, 2, 1⟩ : Read).reply [2, 3] ⟨fun _ => .ok, 4096, []⟩) := by
  have forward : ForwardRun (Fs.new midnight) blank threeBytes := by
    refine ⟨?_, fun _ _ => ⟨?_, fun _ _ => trivial⟩⟩
    · intro i w writes
      cases writes
    · intro i w writes s begins
      have empty : (Fs.new midnight).ink (quietly (.mknod ⟨⟨7⟩, 1, [97], 0, 0⟩)) blank i =
          Flat.empty := by
        simp only [Fs.ink]
        split
        · rfl
        · rfl
      rw [empty] at begins
      cases begins
  obtain ⟨fs', answered⟩ :=
    (reads_return_what_was_written forward rfl rfl (quietly (.read ⟨⟨9⟩, 2, 0, 2, 1⟩)).env
      ⟨fun _ => .ok, 4096, []⟩ ⟨⟨9⟩, 2, 0, 2, 1⟩ rfl).1 ⟨by decide +kernel, by decide +kernel⟩
  exact ⟨_, _, fs', rfl, answered⟩

/-! ### Setting the size -/

theorem applySetattr_size {request : Setattr} {n : UInt64} (sets : request.size = some n)
    (now : Duration) (stat : Stat) :
    (applySetattr request now stat).stSize = n.toInt64 := by
  simp only [applySetattr]
  iterate 3 refine (setGiven_keeps (·.stSize) _ (by intros; rfl) _).trans ?_
  rw [sets]
  rfl

/-- After every such run: a SETATTR of the size of a file that a path leads to is answered with that
size and leaves the file as it is, so that a READ behind what was written crashes the server,
however large the file is said to be. -/
theorem set_sizes_are_not_kept (forward : ForwardRun (Fs.new now) blank vs)
    (served : (Fs.new now).noted Fs.ink blank vs = .ok (fs, store)) {q : List OsStr}
    (path : fs.tree.resolve ROOT_ID q = some i) (there : fs.dataAt i = some file) {s : Setattr}
    {n : UInt64} (inode : s.inode.toNat = i) (sets : s.size = some n) (env : Env τ) (host : Host) :
    ∃ fs' stat, handle env fs (.setattr s) host = replied fs' (s.reply stat env.forever host) ∧
      stat.stSize = n.toInt64 ∧ fs'.dataAt i = some file ∧
      ∀ (r : Read) env host, r.inode.toNat = i → (store i).bytes.length < r.offset.toNat →
        handle (τ := τ) env fs' (.read r) host = .error .panic := by
  obtain ⟨wf, all⟩ := forward.new_holds served
  obtain ⟨e, here, kind⟩ := dataAt_iff.mp there
  subst inode
  obtain ⟨fs', done, wf', swept⟩ := handleSetattrRequest_live env host wf here
  have path' : (fs.update s.inode.toNat (restat s env.now)).tree.resolve ROOT_ID q =
      some s.inode.toNat :=
    (names_update here (fun _ => rfl) q).trans path
  have still := swept.reached wf' path' (entryAt_update_self here (restat s env.now))
  have data : fs'.dataAt s.inode.toNat = some file := dataAt_iff.mpr ⟨_, still, kind⟩
  refine ⟨fs', _, done, applySetattr_size sets env.now e.stat, data, ?_⟩
  intro r env' host' same past
  rw [← same] at data
  refine (handleRead_holds wf' data (all _ file there) host').2 ?_
  rintro ⟨within, _⟩
  rw [same] at *
  omega

def setHundred : Setattr := ⟨⟨8⟩, 2, none, FattrFlags.SIZE, { Stat.zeroed with stSize := 100 }⟩

theorem set_sizes_are_not_kept_hundred :
    ∃ fs store fs' file, (Fs.new midnight).noted Fs.ink blank
      [quietly (.mknod ⟨⟨7⟩, 1, [97], 0, 0⟩)] = .ok (fs, store) ∧
      fs.dataAt 2 = some file ∧ fs'.dataAt 2 = some file ∧
      handle (quietly (.read ⟨⟨9⟩, 2, 0, 1, 50⟩)).env fs' (.read ⟨⟨9⟩, 2, 0, 1, 50⟩)
        ⟨fun _ => .ok, 4096, []⟩ = .error .panic := by
  have forward : ForwardRun (Fs.new midnight) blank [quietly (.mknod ⟨⟨7⟩, 1, [97], 0, 0⟩)] := by
    refine ⟨?_, fun _ _ => trivial⟩
    intro i w writes
    cases writes
  have sets : setHundred.size = some 100 := by decide +kernel
  obtain ⟨fs', stat, _, _, data, crashes⟩ :=
    set_sizes_are_not_kept (q := [[97]]) forward rfl rfl rfl rfl sets
      (quietly (.setattr setHundred)).env ⟨fun _ => .ok, 4096, []⟩
  exact ⟨_, _, fs', _, rfl, rfl, data, crashes ⟨⟨9⟩, 2, 0, 1, 50⟩ _ _ rfl (by decide +kernel)⟩

end runs
end ProxmoxFuse
