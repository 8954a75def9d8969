import ProxmoxFuse.Buffers
import ProxmoxFuse.Namespace
import ProxmoxFuse.Negotiation
import ProxmoxFuse.Nesting
import ProxmoxFuse.Obligations
import ProxmoxFuse.Termination

/-!
# The loop and its stream

The example server is one consumer of a session: every turn of its loop polls, uses
and gives up one request through the methods that requests have. So what holds
over all runs of a session holds here, and what the session promises of its
requests is what the handlers rely on.
-/
namespace ProxmoxFuse
open Fs

/-! ### The handlers know their requests -/

/-- The loop does not end because a request was of a kind without a handler. -/
def Known (out : Except ServerError Unit × Fs × Host) : Prop := out.1 ≠ .error .unknownRequest

section known
variable {τ : Type} [Timeout τ] {env : Env τ} {fs : Fs} {host : Host}

theorem mapError_known (sent : Except IoError Unit) :
    sent.mapError ServerError.io ≠ .error .unknownRequest := by
  cases sent with
  | error e => simp [Except.mapError]
  | ok u => simp [Except.mapError]

theorem orCancelled_known (sent : Except ReplyError Unit) :
    orCancelled sent ≠ .error .unknownRequest := by
  rcases sent with (_ | e) | u
  · simp [orCancelled, handleReplyErr]
  · simp [orCancelled, handleReplyErr]
  · simp [orCancelled]

theorem orStop_known (sent : Except Fault Unit) :
    Returns (· ≠ .error .unknownRequest) (orStop sent) := by
  intro result stops
  rcases sent with (e | _) | u
  · cases stops
    simp
  · cases stops
  · cases stops
    simp

theorem replied_known (sent : Except IoError Unit × Host) : Returns Known (replied fs sent) :=
  Returns.pure (mapError_known sent.1)

theorem failWith_known (r : Request) (error : IoError) : Returns Known (failWith fs r error host) :=
  Returns.bind fun result stops => Returns.pure (orStop_known _ result stops)

theorem handle_known {r : Request} (handled : r.handled = true) :
    Returns Known (handle env fs r host) := by
  cases r with
  | getattr r =>
      simp only [handle, handleGetattr]
      split
      · exact Returns.bind fun _ _ => replied_known _
      · exact failWith_known _ _
  | setattr r =>
      simp only [handle, handleSetattrRequest]
      split
      · exact Returns.bind fun _ _ => Returns.bind fun _ _ => Returns.pure (mapError_known _)
      · exact failWith_known _ _
  | lookup r =>
      simp only [handle, handleLookup]
      refine Returns.bind fun out _ => ?_
      split
      · exact Returns.bind fun _ _ => Returns.pure (orCancelled_known _)
      · exact failWith_known _ _
  | forget r =>
      simp only [handle, handleForget]
      refine Returns.bind fun out _ => ?_
      split
      · exact Returns.pure (by simp [Known])
      · exact Returns.pure (by simp [Known])
  | readdir r =>
      simp only [handle, handleReaddirRequest]
      refine Returns.bind fun out _ => ?_
      split
      · exact Returns.bind fun result stops => Returns.pure (orStop_known _ result stops)
      · exact failWith_known _ _
  | mkdir r =>
      simp only [handle, handleMkdir]
      refine Returns.bind fun out _ => ?_
      split
      · exact Returns.bind fun _ _ => replied_known _
      · exact failWith_known _ _
  | create r =>
      simp only [handle, handleCreate]
      refine Returns.bind fun out _ => ?_
      split
      · refine Returns.bind fun _ _ => Returns.bind fun _ _ => Returns.bind fun _ _ => ?_
        exact Returns.pure (orCancelled_known _)
      · exact failWith_known _ _
  | mknod r =>
      simp only [handle, handleMknod]
      refine Returns.bind fun out _ => ?_
      split
      · exact Returns.bind fun _ _ => replied_known _
      · exact failWith_known _ _
  | «open» r =>
      simp only [handle, handleOpen]
      split
      · exact Returns.bind fun _ _ => Returns.pure (orCancelled_known _)
      · exact failWith_known _ _
  | release r =>
      simp only [handle, handleRelease]
      refine Returns.bind fun out _ => ?_
      split
      · exact replied_known _
      · exact failWith_known _ _
  | unlink r =>
      simp only [handle, handleUnlink]
      refine Returns.bind fun out _ => ?_
      split
      · exact replied_known _
      · exact failWith_known _ _
  | rmdir r =>
      simp only [handle, handleRmdir]
      refine Returns.bind fun out _ => ?_
      split
      · exact replied_known _
      · exact failWith_known _ _
  | write r =>
      simp only [handle, handleWrite]
      refine Returns.bind fun data _ => Returns.bind fun out _ => ?_
      split
      · exact replied_known _
      · exact failWith_known _ _
  | read r =>
      simp only [handle, handleRead]
      refine Returns.bind fun out _ => ?_
      split
      · exact replied_known _
      · exact failWith_known _ _
  | _ => cases handled

/-- What `main` enables has a handler. -/
theorem mytmpfs_handled {r : Request}
    (served : r.isForget = true ∨ mytmpfs.ops.enables r.opcode = true) :
    r.handled = true := by
  cases r <;> first | rfl | (rcases served with no | no <;> cases no)

end known

/-! ### What a poll hands out -/

/-- The request among the items of a poll. -/
def PollResult.request? : PollResult → Option Request
  | .item (.ok r) => some r
  | _ => none

/-- The requests that polls returned. -/
def taken (trace : List Obs) : List Request := (yielded trace).filterMap Except.toOption

/-- A poll that returned, or is still looping, has handed out what it returned. -/
structure HandsOut (w : World) (out : Option PollResult × World) : Prop where
  held : out.2.held.map Prod.fst = w.held.map Prod.fst ++ (out.1.bind PollResult.request?).toList
  gave : taken out.2.trace = taken w.trace ++ (out.1.bind PollResult.request?).toList
  panics : out.1 = some .panicked → .returned .panicked ∈ out.2.trace

/-- Nothing was handed out and nothing returned. -/
structure Silent (w w' : World) : Prop where
  held : w'.held = w.held
  items : yielded w'.trace = yielded w.trace

theorem Silent.ret {w w' : World} (silent : Silent w w') {result : PollResult}
    (none : result.request? = none) :
    HandsOut w (w'.ret result) := by
  refine ⟨?_, ?_, ?_⟩
  · simp [World.ret, World.observe, silent.held, none]
  · have nothing : (yielded [Obs.returned result]).filterMap Except.toOption = [] := by
      rcases result with _ | _ | (e | r) | _
      · rfl
      · rfl
      · rfl
      · cases none
      · rfl
    simp only [World.ret, World.observe, taken, yielded_append, List.filterMap_append, silent.items,
      nothing, Option.bind_some, none, Option.toList_none]
  · intro same
    cases same
    simp [World.ret, World.observe]

theorem Silent.loops {w w' : World} (silent : Silent w w') : HandsOut w (none, w') := by
  refine ⟨by simp [silent.held], by simp [taken, silent.items], ?_⟩
  intro same
  cases same

theorem Silent.process {w w' : World} {m : Message} {result : Except Fault Unit}
    (done : (w.fill m).process m = (result, w')) : Silent w w' := by
  obtain ⟨fuse, host, heap, rfl, _⟩ := World.process_processed done
  exact ⟨rfl, rfl⟩

theorem Silent.trans {w w₁ w' : World} (first : Silent w w₁) (second : Silent w₁ w') :
    Silent w w' :=
  ⟨second.held.trans first.held, second.items.trans first.items⟩

theorem World.exclusive_silent {w w₁ : World} (own : w.exclusive = some w₁) : Silent w w₁ := by
  obtain ⟨rfl, -⟩ | ⟨rfl, -⟩ := World.exclusive_cases own
  · exact ⟨rfl, rfl⟩
  · exact ⟨rfl, rfl⟩

theorem World.observe_silent (w : World) {o : Obs} (quiet : o.yielded? = none) :
    Silent w (w.observe o) := by
  refine ⟨rfl, ?_⟩
  rw [World.observe_trace, yielded_append]
  simp [yielded, quiet]

theorem World.watch_silent (w : World) (ready : Bool) : Silent w (w.watch ready) := by
  refine ⟨rfl, ?_⟩
  simp [World.watch, World.observe, yielded, Obs.yielded?]

theorem World.finish_silent (w : World) : Silent w w.finish := ⟨rfl, rfl⟩

theorem World.pollTurn_handsOut (w : World) (t : Turn) : HandsOut w (w.pollTurn t) := by
  have view := w.pollTurn_turned t
  generalize w.pollTurn t = out at view
  cases view with
  | yielded r rest queue =>
      refine ⟨?_, ?_, ?_⟩
      · simp [World.ret, World.observe, World.yield, PollResult.request?]
      · simp [World.ret, World.observe, World.yield, PollResult.request?, taken, yielded,
          Obs.yielded?, PollResult.item?, Except.toOption]
      · intro same
        cases same
  | finished queue stopped => exact Silent.ret ⟨rfl, rfl⟩ rfl
  | watcherTaken queue unfinished taken => exact Silent.ret ⟨rfl, rfl⟩ rfl
  | watcherDone idle => exact ((w.watch_silent true).trans (World.finish_silent _)).ret rfl
  | pending idle => exact (w.watch_silent false).ret rfl
  | unready idle e => exact ((w.watch_silent false).trans (World.observe_silent _ rfl)).ret rfl
  | shared idle none => exact (w.watch_silent false).ret rfl
  | read idle w₁ own =>
      have silent := (w.watch_silent false).trans
        ((World.exclusive_silent own).trans
          (World.observe_silent w₁ (o := .read w₁.fuse.buf t.read w₁.host.next) rfl))
      have view := World.afterRead_cases (w₁.observeRead t.read) t.read
      change Silent w (w₁.observeRead t.read) at silent
      generalize w₁.observeRead t.read = w₂ at silent view
      generalize t.read = result at view ⊢
      generalize w₂.afterRead result = out at view
      cases view with
      | again => exact silent.loops
      | closed errno gone => exact (silent.trans (World.finish_silent _)).ret rfl
      | failed errno real present => exact silent.ret rfl
      | eof m empty => exact (silent.trans (World.finish_silent _)).ret rfl
      | accepted m some w' done => exact (silent.trans (Silent.process done)).loops
      | refused m some w' e done => exact (silent.trans (Silent.process done)).ret rfl
      | panicked m some w' done => exact (silent.trans (Silent.process done)).ret rfl

theorem World.pollNext_handsOut (w : World) (turns : List Turn) :
    HandsOut w (w.pollNext turns) := by
  induction turns generalizing w with
  | nil => exact Silent.loops ⟨rfl, rfl⟩
  | cons t turns ih =>
      have first := w.pollTurn_handsOut t
      unfold World.pollNext
      split
      · next result w' same => rwa [same] at first
      · next w' same =>
          rw [same] at first
          have rest := ih w'
          refine ⟨?_, ?_, rest.panics⟩
          · rw [rest.held, first.held]
            simp
          · rw [rest.gave, first.gave]
            simp

/-! ### One request of the loop -/

section loop
variable {τ : Type} [Timeout τ] {start w w' : World} {first fs fs' : Fs} {r r' : Request}

theorem Call.after_releaseBuffer (c : Call τ r) (heap : ArcHeap Bytes) :
    c.after.releaseBuffer heap = r.releaseBuffer heap := by
  cases c <;> rfl

theorem Called.releaseBuffer (calls : Called τ r r') (heap : ArcHeap Bytes) :
    r'.releaseBuffer heap = r.releaseBuffer heap := by
  induction calls with
  | refl => rfl
  | tail _ last ih =>
      obtain ⟨call, rfl⟩ := last
      rw [call.after_releaseBuffer, ih]

theorem Called.reaches (calls : Called τ r r') {m : Message} (held : w.held = [(r, m)]) :
    Reaches τ w { w with held := [(r', m)] } := by
  induction calls with
  | refl => rw [← held]
  | tail _ last ih =>
      obtain ⟨call, rfl⟩ := last
      exact ih.tail (.call { w with held := _ } [] [] _ m rfl call)

/-- The methods a handler calls, and the one that gives the request up. -/
theorem handed_reaches {m : Message} (held : w.held = [(r, m)]) (calls : Called τ r r')
    (c : Consume τ r') :
    Reaches τ w (w.handed r (c.run w.host)) := by
  have last : Reaches τ { w with held := [(r', m)] } _ :=
    .single (.consume { w with held := [(r', m)] } [] [] r' m rfl c trivial)
  have same : World.consume { w with held := [(r', m)] } ([] ++ []) r' c =
      w.handed r (c.run w.host) := by
    simp only [World.consume, World.handed, held, calls.releaseBuffer, List.nil_append]
    rfl
  rw [same] at last
  exact (calls.reaches held).trans last

theorem serve_snoc (vs : List (Visit τ)) (v : Visit τ) (served : first.serve vs = .ok fs)
    {result : Except ServerError Unit} {host : Host}
    (handled : handle v.env fs v.request v.host = .ok (result, fs', host)) :
    first.serve (vs ++ [v]) = .ok fs' := by
  induction vs generalizing first with
  | nil =>
      cases served
      simp only [List.nil_append, Fs.serve, handled]
      rfl
  | cons x rest ih =>
      simp only [List.cons_append, Fs.serve] at served ⊢
      cases out : handle x.env first x.request x.host with
      | error crash =>
          rw [out] at served
          cases served
      | ok out' =>
          rw [out] at served
          exact ih served

/-- The loop between two polls: a run of the session and of the file system over the same
requests, with no request left over. -/
structure Serving (τ : Type) [Timeout τ] (start : World) (first : Fs) (w : World) (fs : Fs) :
    Prop where
  run : Reaches τ start w
  wf : Wf fs []
  free : w.held = []
  served : ∃ vs : List (Visit τ), first.serve vs = .ok fs ∧
    taken w.trace = taken start.trace ++ vs.map (·.request)

theorem Serving.dropFuse (serving : Serving τ start first w fs) (live : w.live = true) :
    Serving τ start first w.dropFuse fs :=
  ⟨serving.run.tail (.dropFuse w live), serving.wf, serving.free, serving.served⟩

/-- A poll that hands out no request. -/
theorem Serving.poll (serving : Serving τ start first w fs) (live : w.live = true)
    {turns : List Turn} {result : Option PollResult} (polled : w.pollNext turns = (result, w'))
    (none : result.bind PollResult.request? = none) :
    Serving τ start first w' fs := by
  have out := w.pollNext_handsOut turns
  have step : Step τ (fun _ _ _ => True) w (w.pollNext turns).2 := .poll w live turns
  rw [polled] at out step
  obtain ⟨vs, served, given⟩ := serving.served
  refine ⟨serving.run.tail step, serving.wf, ?_, vs, served, ?_⟩
  · have held := out.held
    rw [none, serving.free] at held
    exact List.map_eq_nil_iff.mp held
  · have gave := out.gave
    rw [none, Option.toList_none, List.append_nil] at gave
    exact gave.trans given

/-- The request a poll hands out is the only one there is. -/
theorem Serving.hands (serving : Serving τ start first w fs) {turns : List Turn}
    (polled : w.pollNext turns = (some (.item (.ok r)), w')) : ∃ m, w'.held = [(r, m)] := by
  have held := (w.pollNext_handsOut turns).held
  rw [polled, serving.free] at held
  obtain ⟨⟨r', m⟩, rest, split, rfl, none⟩ := List.map_eq_cons_iff.mp held
  rw [List.map_eq_nil_iff.mp none] at split
  exact ⟨m, split⟩

theorem Serving.handles (serving : Serving τ start first w fs) (live : w.live = true)
    {turns : List Turn} (polled : w.pollNext turns = (some (.item (.ok r)), w')) {env : Env τ}
    {result : Except ServerError Unit} {host : Host}
    (handled : handle env fs r w'.host = .ok (result, fs', host)) :
    Serving τ start first (w'.handed r host) fs' := by
  obtain ⟨m, held⟩ := serving.hands polled
  have step : Step τ (fun _ _ _ => True) w (w.pollNext turns).2 := .poll w live turns
  have gave := (w.pollNext_handsOut turns).gave
  have settled : Settled env fs r w'.host (handle env fs r w'.host) := handle_settled serving.wf r
  rw [handled] at settled
  rw [polled] at step gave
  obtain ⟨vs, served, given⟩ := serving.served
  cases settled with
  | done _ mid _ r' c effect calls swept wf' =>
      refine ⟨(serving.run.tail step).trans (handed_reaches held calls c), wf', ?_,
        vs ++ [⟨env, r, w'.host⟩], ?_, ?_⟩
      · simp [World.handed, held]
      · exact serve_snoc vs ⟨env, r, w'.host⟩ served handled
      · rw [List.map_append, ← List.append_assoc, ← given]
        exact gave

/-- Where the loop crashed: with the last request in hand and the file system that those before it
left behind, in the handler. -/
structure CrashedAt (start : World) (first : Fs) (wakes : List (Wake τ)) (stack : Option Nat)
    (crash : Crash) (w : World) (fs : Fs) (r : Request) (env : Env τ) : Prop where
  run : Reaches τ start w
  held : ∃ m, w.held = [(r, m)]
  served : ∃ vs : List (Visit τ), first.serve vs = .ok fs ∧
    taken w.trace = taken start.trace ++ vs.map (·.request) ++ [r]
  wake : ∃ wake ∈ wakes, env = ⟨wake.now, wake.depth, wake.forever, w.heap⟩
  crashes : handle env fs r w.host stack = .error crash

/-- What a handler met that crashed. -/
inductive Met (env : Env τ) (fs : Fs) (stack : Option Nat) (r : Request) : Crash → Prop where
  | breaks (crash : Crash) (why : Breaks env fs r crash) : Met env fs stack r crash
  | nested (k : Nat) (bound : stack = some k) (deep : fs.Deep (r.chain k)) :
      Met env fs stack r .stackOverflow

/-- How the loop ends. -/
inductive Looped (start : World) (first : Fs) (wakes : List (Wake τ)) (stack : Option Nat) :
    Except Crash (LoopEnd × World × Fs) → Prop where
  | ended (ended : LoopEnd) (w : World) (fs : Fs) (serving : Serving τ start first w fs)
      (unknown : ended = .failed .unknownRequest → ∃ r ∈ taken w.trace, r.handled = false) :
      Looped start first wakes stack (.ok (ended, w, fs))
  | crashed (crash : Crash) (w : World) (fs : Fs) (r : Request) (env : Env τ)
      (there : CrashedAt start first wakes stack crash w fs r env)
      (met : Met env fs stack r crash) :
      Looped start first wakes stack (.error crash)
  | panicked (w : World) (run : Reaches τ start w) (panics : .returned .panicked ∈ w.trace) :
      Looped start first wakes stack (.error .panic)

theorem Looped.later {wake : Wake τ} {wakes : List (Wake τ)} {stack : Option Nat}
    {out : Except Crash (LoopEnd × World × Fs)} (looped : Looped start first wakes stack out) :
    Looped start first (wake :: wakes) stack out := by
  cases looped with
  | ended ended w fs serving unknown => exact .ended ended w fs serving unknown
  | panicked w run panics => exact .panicked w run panics
  | crashed crash w fs r env there met =>
      obtain ⟨later, among, same⟩ := there.wake
      refine .crashed crash w fs r env ?_ met
      exact { there with wake := ⟨later, List.mem_cons_of_mem wake among, same⟩ }

theorem handle_stacked (env : Env τ) (wf : Wf fs []) (r : Request) (host : Host)
    (stack : Option Nat) :
    Cramped .stackOverflow (∃ k, stack = some k ∧ fs.Deep (r.chain k)) (handle env fs r host)
      (handle env fs r host stack) := by
  cases stack with
  | none => exact .same
  | some k => exact (handle_cramped env wf r host).mono fun deep => ⟨k, rfl, deep⟩

theorem handle_meets {env : Env τ} (wf : Wf fs []) {host : Host} {stack : Option Nat}
    {crash : Crash} (crashes : handle env fs r host stack = .error crash) :
    Met env fs stack r crash := by
  have settled : Settled env fs r host (handle env fs r host) := handle_settled wf r
  have cramped := handle_stacked env wf r host stack
  rw [crashes] at cramped
  generalize handle env fs r host = full at settled cramped
  cases cramped with
  | ran why =>
      obtain ⟨k, bound, deep⟩ := why
      exact .nested k bound deep
  | same =>
      cases settled with
      | broken _ breaks => exact .breaks crash breaks

theorem World.pollNext_live (w : World) (turns : List Turn) : (w.pollNext turns).2.live = w.live :=
  World.pollNext_induct (P := fun w' => w'.live = w.live)
    (fun w' t same => (w'.pollTurn_live t).trans same) w turns rfl

theorem handleFuse_looped (wakes : List (Wake τ)) (stack : Option Nat)
    (serving : Serving τ start first w fs) (live : w.live = true) :
    Looped start first wakes stack (handleFuse wakes w fs stack) := by
  induction wakes generalizing w fs with
  | nil => exact .ended .waiting w fs serving (by simp)
  | cons wake rest ih =>
      have alive := w.pollNext_live wake.turns
      have out := w.pollNext_handsOut wake.turns
      have step : Step τ (fun _ _ _ => True) w (w.pollNext wake.turns).2 := .poll w live wake.turns
      unfold handleFuse
      rcases polled : w.pollNext wake.turns with ⟨result, w'⟩
      rw [polled] at alive out step
      have live' : w'.live = true := alive.trans live
      rcases result with _ | (_ | _ | (e | r) | _)
      · exact (ih (serving.poll live polled rfl) live').later
      · exact (ih (serving.poll live polled rfl) live').later
      · exact .ended .finished _ fs ((serving.poll live polled rfl).dropFuse live') (by simp)
      · exact .ended (.failed (.io e)) _ fs ((serving.poll live polled rfl).dropFuse live')
          (by simp)
      · dsimp only
        have gave := out.gave
        cases handled : handle ⟨wake.now, wake.depth, wake.forever, w'.heap⟩ fs r w'.host stack with
        | error crash =>
            obtain ⟨vs, served, given⟩ := serving.served
            refine .crashed crash w' fs r ⟨wake.now, wake.depth, wake.forever, w'.heap⟩ ?_
              (handle_meets serving.wf handled)
            refine ⟨serving.run.tail step, serving.hands polled, ⟨vs, served, ?_⟩,
              ⟨wake, List.mem_cons_self, rfl⟩, handled⟩
            rw [← given]
            exact gave
        | ok done =>
            obtain ⟨result, fs', host⟩ := done
            have roomy := (handle_stacked _ serving.wf r w'.host stack).returned handled
            have next := serving.handles live polled roomy
            cases result with
            | ok u => exact (ih next live').later
            | error e =>
                refine .ended (.failed e) _ fs' (next.dropFuse live') ?_
                intro same
                cases same
                refine ⟨r, ?_, ?_⟩
                · change r ∈ taken w'.trace
                  rw [gave]
                  exact List.mem_append_right _ (List.mem_singleton_self r)
                · by_contra known
                  exact handle_known (Bool.eq_true_of_not_eq_false known) _ roomy rfl
      · exact .panicked w' (serving.run.tail step) (out.panics rfl)

theorem handleFuse_takes {wake : Wake τ} {rest : List (Wake τ)} {stack : Option Nat} {host : Host}
    (polled : w.pollNext wake.turns = (some (.item (.ok r)), w'))
    (handled : handle ⟨wake.now, wake.depth, wake.forever, w'.heap⟩ fs r w'.host stack =
      .ok (.ok (), fs', host)) :
    handleFuse (wake :: rest) w fs stack = handleFuse rest (w'.handed r host) fs' stack := by
  simp only [handleFuse, polled, handled, Except.ok_bind]

theorem mounted_serving (ops : EnabledOps) (initDone : Bool) (outcome : Nat → WritevResult)
    (pageSize : Int64) (now : Duration) :
    Serving τ (World.mounted ops initDone outcome pageSize) (Fs.new now)
      (World.mounted ops initDone outcome pageSize) (Fs.new now) :=
  ⟨.refl, new_wf now, rfl, [], rfl, by simp⟩

end loop

section mount
variable {τ : Type} [Timeout τ] {initDone : Bool} {outcome : Nat → WritevResult} {pageSize : Int64}
  {now : Duration} {wakes : List (Wake τ)}

/-- However the stream and the kernel behave, the example server is a consumer that gives up every
request before it polls again; it never meets a request it does not know, and its paths are
those the requests of the stream made, in their order. -/
theorem tmpfs_serves_its_stream {ended : LoopEnd} {w : World} {fs : Fs}
    (looped : handleFuse wakes (World.mounted mytmpfs.ops initDone outcome pageSize) (Fs.new now) =
      .ok (ended, w, fs)) :
    Reaches τ (World.mounted mytmpfs.ops initDone outcome pageSize) w ∧ w.held = [] ∧
      ended ≠ .failed .unknownRequest ∧ NameRun rootOnly (taken w.trace) fs.names := by
  have view :=
    handleFuse_looped wakes none (mounted_serving (τ := τ) mytmpfs.ops initDone outcome
      pageSize now) rfl
  rw [looped] at view
  cases view with
  | ended _ _ _ serving unknown =>
      refine ⟨serving.run, serving.free, ?_, ?_⟩
      · intro failed
        obtain ⟨r, given, none⟩ := unknown failed
        obtain ⟨item, member, same⟩ := List.mem_filterMap.mp given
        cases item with
        | error e => cases same
        | ok r' =>
            cases same
            rw [mytmpfs_handled (yielded_enabled serving.run member)] at none
            cases none
      · obtain ⟨vs, served, given⟩ := serving.served
        rw [given, ← new_names now]
        exact serve_names (new_wf now) served

/-- A wake that reads a message and hands out its request. -/
def wakeFor (m : Message) : Wake (UInt64 × UInt32) :=
  ⟨[⟨false, .ready, .data m⟩, ⟨false, .pending, .error EAGAIN⟩], midnight, 8, (0, 0)⟩

def tmpfsMount : World := World.mounted mytmpfs.ops true (fun _ => .ok) 4096

def mkdirMessage : Message :=
  ⟨Packed.bytes (FuseInHeader.mk 50 9 1 1 0 0 0 0 0) ++
    (Packed.bytes (FuseMkdirIn.mk 0 0) ++ [97, 0]), by decide⟩

set_option maxRecDepth 100000 in
theorem tmpfs_serves_its_stream_mkdir :
    ∃ w fs, handleFuse [wakeFor mkdirMessage] tmpfsMount (Fs.new midnight) = .ok (.waiting, w, fs) ∧
      taken w.trace = [.mkdir ⟨⟨1⟩, 1, [97], 0⟩] ∧ NameRun rootOnly (taken w.trace) fs.names := by
  have polled : tmpfsMount.pollNext (wakeFor mkdirMessage).turns = _ :=
    World.pollNext_takes (r := .mkdir ⟨⟨1⟩, 1, [97], 0⟩)
      ⟨rfl, rfl, rfl⟩ rfl rfl (accepted_bytes rfl) rfl rfl _
  have looped : handleFuse [wakeFor mkdirMessage] tmpfsMount (Fs.new midnight) = _ :=
    handleFuse_takes polled rfl
  exact ⟨_, _, looped, rfl, (tmpfs_serves_its_stream looped).2.2.2⟩

end mount
end ProxmoxFuse
