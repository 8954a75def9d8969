import ProxmoxFuse.Buffers

/-!
# The end of the stream

`finished` is set by the watcher, by the end of the descriptor and by DESTROY, at
points where the queue happens to be empty. `Terminal` is the invariant behind
`FusedStream`: a finished stream has nothing queued and is never read or watched
again, and no poll panics.
-/
namespace ProxmoxFuse

/-- The watcher is not polled again once it was ready. -/
def WatchedOnce (trace : List Obs) : Prop :=
  trace.Pairwise fun a b => a = .watcher true → ∀ ready, b ≠ .watcher ready

structure Terminal (w : World) : Prop where
  drained : w.fuse.finished = true → w.fuse.pending = []
  watched : w.fuse.errWatcher.taken = true → w.fuse.finished = true
  ended : .returned .done ∈ w.trace → w.fuse.finished = true
  polled : .watcher true ∈ w.trace → w.fuse.errWatcher.taken = true
  once : WatchedOnce w.trace
  calm : .returned .panicked ∉ w.trace

theorem mounted_terminal (ops : EnabledOps) (initDone : Bool) (outcome : Nat → WritevResult)
    (pageSize : Int64) :
    Terminal (World.mounted ops initDone outcome pageSize) where
  drained _ := rfl
  watched taken := by cases taken
  ended := by simp [World.mounted]
  polled := by simp [World.mounted]
  once := List.Pairwise.nil
  calm := by simp [World.mounted]

/-- Changes that keep the history and do not forget that the stream is finished. -/
theorem Terminal.frame {w w' : World} (h : Terminal w) (trace : w'.trace = w.trace)
    (watcher : w'.fuse.errWatcher = w.fuse.errWatcher)
    (finished : w.fuse.finished = true → w'.fuse.finished = true)
    (drained : w'.fuse.finished = true → w'.fuse.pending = []) : Terminal w' where
  drained := drained
  watched taken := finished (h.watched (watcher ▸ taken))
  ended member := finished (h.ended (trace ▸ member))
  polled member := watcher ▸ h.polled (trace ▸ member)
  once := trace ▸ h.once
  calm := trace ▸ h.calm

/-- Observations other than polls of the watcher. -/
theorem Terminal.observe {w : World} (h : Terminal w) {o : Obs} (calm : o ≠ .returned .panicked)
    (ended : o = .returned .done → w.fuse.finished = true) (other : ∀ ready, o ≠ .watcher ready) :
    Terminal (w.observe o) where
  drained := h.drained
  watched := h.watched
  ended member := by
    rcases List.mem_append.mp member with old | new
    · exact h.ended old
    · exact ended (List.mem_singleton.mp new).symm
  polled member := by
    rcases List.mem_append.mp member with old | new
    · exact h.polled old
    · exact absurd (List.mem_singleton.mp new).symm (other true)
  once := by
    refine List.pairwise_append.mpr ⟨h.once, List.pairwise_singleton _ _, ?_⟩
    intro a _ b last _
    rw [List.mem_singleton.mp last]
    exact other
  calm member := by
    rcases List.mem_append.mp member with old | new
    · exact h.calm old
    · exact calm (List.mem_singleton.mp new).symm

theorem Terminal.item {w : World} (h : Terminal w) (item : Except IoError Request) :
    Terminal (w.observe (.returned (.item item))) :=
  h.observe (by simp) (by simp) (by simp)

theorem Terminal.done {w : World} (h : Terminal w) (stopped : w.fuse.finished = true) :
    Terminal (w.observe (.returned .done)) :=
  h.observe (by simp) (fun _ => stopped) (by simp)

/-- A watcher that may be polled was never seen ready. -/
theorem Terminal.unwatched {w : World} (h : Terminal w) (idle : w.Idle) :
    .watcher true ∉ w.trace := by
  intro seen
  have taken := h.polled seen
  rw [idle.watching] at taken
  cases taken

theorem Terminal.once_watch {w : World} (h : Terminal w) (idle : w.Idle) (ready : Bool) :
    WatchedOnce (w.trace ++ [.watcher ready]) := by
  refine List.pairwise_append.mpr ⟨h.once, List.pairwise_singleton _ _, ?_⟩
  intro a member b _ same
  exact absurd (same ▸ member) (h.unwatched idle)

theorem Terminal.watch {w : World} (h : Terminal w) (idle : w.Idle) : Terminal (w.watch false) where
  drained := h.drained
  watched taken := by cases taken
  ended member := h.ended (by simpa [World.watch] using member)
  polled member := absurd (by simpa [World.watch] using member) (h.unwatched idle)
  once := h.once_watch idle false
  calm member := h.calm (by simpa [World.watch] using member)

/-- A watcher that is ready ends the stream in the same turn. -/
theorem Terminal.watchDone {w : World} (h : Terminal w) (idle : w.Idle) :
    Terminal (w.watch true).finish where
  drained _ := idle.queue
  watched _ := rfl
  ended _ := rfl
  polled _ := rfl
  once := h.once_watch idle true
  calm member := h.calm (by simpa [World.watch, World.finish] using member)

/-! ### Turns -/

/-- Processing leaves the watcher alone, and finishes the stream only by DESTROY. -/
theorem Processed.flags {fuse fuse' : Fuse} {buf : Nat} {bytes : Bytes} {host host' : Host}
    {heap heap' : ArcHeap Bytes} {result : Except Fault Unit}
    (view : Processed fuse buf bytes host heap (result, fuse', host', heap')) :
    fuse'.errWatcher = fuse.errWatcher ∧ (fuse.finished = true → fuse'.finished = true) ∧
      (fuse'.finished = true → fuse.finished = true ∨ fuse'.pending = fuse.pending) := by
  cases view with
  | destroyed => exact ⟨rfl, fun _ => rfl, fun _ => .inr rfl⟩
  | _ => exact ⟨rfl, fun stopped => stopped, fun stopped => .inl stopped⟩

theorem World.process_noPanic (w w' : World) (m : Message) :
    (w.fill m).process m ≠ (.error .panic, w') := by
  intro panicked
  have clean := processRequest_noPanic w.fuse w.fuse.buf m.bytes _ w.host _ (w.fill_value m)
  have result : (w.fuse.processRequest w.fuse.buf m.bytes.length w.host
      ((w.fill m).heap.retain w.fuse.buf)).1 = .error .panic := congrArg Prod.fst panicked
  exact clean .panic result rfl

theorem Terminal.process {w w' : World} (h : Terminal w) (idle : w.Idle) {m : Message}
    {result : Except Fault Unit} (done : (w.fill m).process m = (result, w')) : Terminal w' := by
  obtain ⟨fuse, host, heap, rfl, view⟩ := World.process_processed done
  obtain ⟨watcher, finished, drained⟩ := view.flags
  refine h.frame rfl watcher finished fun stopped => ?_
  rcases drained stopped with before | same
  · rw [idle.unfinished] at before
    cases before
  · exact same.trans idle.queue

theorem Terminal.afterRead {w : World} (h : Terminal w) (idle : w.Idle) (result : ReadResult) :
    Terminal ((w.observeRead result).afterRead result).2 := by
  have view := World.afterRead_cases (w.observeRead result) result
  generalize (w.observeRead result).afterRead result = out at view
  have h' : Terminal (w.observeRead result) := h.observe (by simp) (by simp) (by simp)
  have idle' : (w.observeRead result).Idle := ⟨idle.queue, idle.unfinished, idle.watching⟩
  have stopped : Terminal (w.observeRead result).finish :=
    h'.frame rfl rfl (fun _ => rfl) fun _ => idle.queue
  cases view with
  | again => exact h'
  | closed errno gone => exact stopped.done rfl
  | failed errno real present => exact h'.item _
  | eof m empty => exact stopped.done rfl
  | accepted m some w' done => exact h'.process idle' done
  | refused m some w' e done => exact (h'.process idle' done).item _
  | panicked m some w' done => exact absurd done (World.process_noPanic _ _ m)

theorem Terminal.turn {w : World} (h : Terminal w) (b : Buffers w) (live : w.live = true)
    (t : Turn) :
    Terminal (w.pollTurn t).2 := by
  have view := w.pollTurn_turned t
  generalize w.pollTurn t = out at view
  cases view with
  | yielded r rest queue =>
      have yielding : Terminal (w.yield r rest) := by
        refine h.frame rfl rfl (fun stopped => stopped) fun stopped => ?_
        have empty := h.drained stopped
        rw [queue] at empty
        cases empty
      exact yielding.item _
  | finished queue stopped => exact h.done stopped
  | watcherTaken queue unfinished taken =>
      have stopped := h.watched taken
      rw [unfinished] at stopped
      cases stopped
  | watcherDone idle => exact (h.watchDone idle).done rfl
  | pending idle => exact (h.watch idle).observe (by simp) (by simp) (by simp)
  | unready idle e => exact ((h.watch idle).observe (by simp) (by simp) (by simp)).item _
  | shared idle none =>
      obtain ⟨w₁, own, -⟩ := (b.watch false).exclusive live
      rw [none] at own
      cases own
  | read idle w₁ own =>
      have same : Terminal w₁ ∧ w₁.Idle := by
        obtain ⟨rfl, -⟩ | ⟨rfl, -⟩ := World.exclusive_cases own
        · exact ⟨h.watch idle, idle.queue, idle.unfinished, rfl⟩
        · exact ⟨(h.watch idle).frame rfl rfl (fun stopped => stopped) (h.watch idle).drained,
            idle.queue, idle.unfinished, rfl⟩
      exact same.1.afterRead same.2 t.read

/-! ### Runs -/

section runs
variable {τ : Type} [Timeout τ]

theorem Terminal.step {may : ∀ r, Consume τ r → WritevResult → Prop} {w w' : World} (h : Terminal w)
    (b : Buffers w) (step : Step τ may w w') : Terminal w' := by
  cases step with
  | poll live turns =>
      have all := World.pollNext_induct (P := fun w => Terminal w ∧ Buffers w ∧ w.live = true)
        (fun w t before => ⟨before.1.turn before.2.1 before.2.2 t, before.2.1.turn before.2.2 t,
          (w.pollTurn_live t).trans before.2.2⟩) w turns ⟨h, b, live⟩
      exact all.1
  | call front back r m split c => exact h.frame rfl rfl (fun stopped => stopped) h.drained
  | consume front back r m split c allowed =>
      exact h.frame rfl rfl (fun stopped => stopped) h.drained
  | dropFuse live => exact h.frame rfl rfl (fun stopped => stopped) fun _ => rfl

theorem mounted_run_terminal {ops : EnabledOps} {initDone : Bool} {outcome : Nat → WritevResult}
    {pageSize : Int64} {w : World}
    (run : Reaches τ (World.mounted ops initDone outcome pageSize) w) :
    Terminal w :=
  run_induct (fun _ _ before h last => h.step (mounted_run_buffers before) last)
    (mounted_terminal ops initDone outcome pageSize) run

/-- A finished stream answers every poll at once, without a look at watcher or descriptor. -/
theorem Terminal.pollNext_done {w : World} (h : Terminal w) (stopped : w.fuse.finished = true)
    (t : Turn) (turns : List Turn) :
    w.pollNext (t :: turns) = (some .done, w.observe (.returned .done)) := by
  have turn : w.pollTurn t = w.ret .done := by
    unfold World.pollTurn
    rw [h.drained stopped]
    dsimp only
    rw [if_pos stopped]
  rw [World.pollNext, turn]
  rfl

theorem Terminal.step_finished {may : ∀ r, Consume τ r → WritevResult → Prop} {w w' : World}
    (h : Terminal w) (stopped : w.fuse.finished = true) (step : Step τ may w w') :
    w'.fuse.finished = true := by
  cases step with
  | poll live turns =>
      cases turns with
      | nil => exact stopped
      | cons t turns =>
          rw [h.pollNext_done stopped]
          exact stopped
  | call front back r m split c => exact stopped
  | consume front back r m split c allowed => exact stopped
  | dropFuse live => exact stopped

/-- Termination is final, loses nothing, and is what the end of the stream reports. -/
theorem terminated_is_final (ops : EnabledOps) (initDone : Bool) (outcome : Nat → WritevResult)
    (pageSize : Int64) (w : World)
    (run : Reaches τ (World.mounted ops initDone outcome pageSize) w) :
    (w.isTerminated = true → w.fuse.pending = [] ∧
      ∀ w', Reaches τ w w' → ∀ t turns,
        w'.pollNext (t :: turns) = (some .done, w'.observe (.returned .done))) ∧
    (.returned .done ∈ w.trace → w.isTerminated = true) ∧
    WatchedOnce w.trace ∧ .returned .panicked ∉ w.trace := by
  have h := mounted_run_terminal run
  refine ⟨fun stopped => ⟨h.drained stopped, ?_⟩, h.ended, h.once, h.calm⟩
  intro w' later t turns
  have stopped' : w'.fuse.finished = true :=
    run_induct (P := fun w => w.fuse.finished = true)
      (fun _ _ before ended last => (mounted_run_terminal (run.trans before)).step_finished
        ended last)
      stopped later
  exact (mounted_run_terminal (run.trans later)).pollNext_done stopped' t turns

end runs

/-- A LOOKUP is taken, the watcher ends the stream, and the LOOKUP is refused. -/
theorem terminated_is_final_watched :
    ∃ w w' : World, Reaches (UInt64 × UInt32)
      (World.mounted { lookup := true } true (fun _ => .ok) 4096) w ∧
      Reaches (UInt64 × UInt32) w w' ∧ w.isTerminated = true ∧ w'.host.log.length = 1 ∧
      ∀ t, w'.pollNext [t] = (some .done, w'.observe (.returned .done)) := by
  have run : Reaches (UInt64 × UInt32) (World.mounted { lookup := true } true (fun _ => .ok) 4096)
      _ :=
    (Relation.ReflTransGen.single (.takes (r := .lookup ⟨⟨2⟩, 1, [97]⟩) rfl ⟨rfl, rfl, rfl⟩ rfl rfl
      (m := ⟨Packed.bytes (FuseInHeader.mk 42 1 2 1 0 0 0 0 0) ++ [97, 0], by decide⟩)
      (accepted_bytes rfl) rfl rfl)).tail (.poll _ rfl [⟨true, .pending, .error EAGAIN⟩])
  refine ⟨_, _, run, .single (.gives rfl (.fail _ ENOENT) trivial), rfl, rfl, fun t => ?_⟩
  exact ((terminated_is_final _ _ _ _ _ run).1 rfl).2 _
    (.single (.gives rfl (.fail _ ENOENT) trivial)) t []

end ProxmoxFuse
