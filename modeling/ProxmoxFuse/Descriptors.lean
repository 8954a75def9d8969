import Mathlib.Data.List.Perm.Basic

/-!
# Owned descriptors

Computations that open and close descriptors and mount file systems, with rules for
what they own when they return, what they have lost on the way and what they have
mounted. A function that returns early closes what it owns.
-/
namespace ProxmoxFuse

/-- The open descriptors of the process, and the mount points with a file system on them,
the last one mounted first. -/
structure Process (μ : Type) where
  fds : List Nat
  mounts : List μ

/-- A computation that works on the process. -/
def Sys (μ ε α : Type) : Type := Process μ → Except ε α × Process μ

namespace Sys
variable {μ ε ε' α β : Type}

instance : Monad (Sys μ ε) where
  pure a := fun p => (.ok a, p)
  bind x f := fun p =>
    match x p with
    | (.ok a, p) => f a p
    | (.error e, p) => (.error e, p)

/-- A call that changes nothing that is followed here. -/
def answer (result : Except ε α) : Sys μ ε α := fun p => (result, p)

def mapErr (f : ε → ε') (x : Sys μ ε α) : Sys μ ε' α := fun p => ((x p).1.mapError f, (x p).2)

/-- A call that opens descriptors. -/
def opening (fds : α → List Nat) (result : Except ε α) : Sys μ ε α := fun p =>
  match result with
  | .ok a => (.ok a, { p with fds := fds a ++ p.fds })
  | .error e => (.error e, p)

/-- `drop` of an `OwnedFd`. -/
def close (fd : Nat) : Sys μ ε Unit := fun p => (.ok (), { p with fds := p.fds.erase fd })

/-- The rest of a function that owns a descriptor, which is closed on every error return. -/
def owning (fd : Nat) (body : Sys μ ε α) : Sys μ ε α := fun p =>
  match body p with
  | (.ok a, p) => (.ok a, p)
  | (.error e, p) => (.error e, { p with fds := p.fds.erase fd })

/-- A call that puts a file system on a mount point. -/
def mounting (mountpoint : μ) (done : Bool) (result : Except ε α) : Sys μ ε α := fun p =>
  (result, { p with mounts := if done then mountpoint :: p.mounts else p.mounts })

/-- A call that takes the topmost file system off a mount point. -/
def unmounting [BEq μ] (mountpoint : μ) (done : Bool) (result : Except ε α) : Sys μ ε α := fun p =>
  (result, { p with mounts := if done then p.mounts.erase mountpoint else p.mounts })

/-! ### Who owns what -/

/-- What was held becomes what `gives` says on success and is given back on an error, but for
what is `lost`: open, and owned by nobody. -/
def Owns (held : List Nat) (x : Sys μ ε α) (gives : α → List Nat) (lost : List Nat) : Prop :=
  ∀ (base : List Nat) (p : Process μ), p.fds.Perm (held ++ base) →
    (∀ a, (x p).1 = .ok a → (x p).2.fds.Perm (gives a ++ (lost ++ base))) ∧
      ∀ e, (x p).1 = .error e → (x p).2.fds.Perm (lost ++ base)

variable {held lost : List Nat} {x : Sys μ ε α} {mid : α → List Nat} {gives : β → List Nat}

/-- What is held and not handed on is lost. -/
theorem Owns.pure_loses (gives : α → List Nat) (lost : List Nat) (a : α) :
    Owns (μ := μ) (ε := ε) (gives a ++ lost) (Pure.pure a) gives lost := by
  intro base p start
  refine ⟨?_, fun e fails => nomatch fails⟩
  intro b same
  cases same
  rwa [List.append_assoc] at start

theorem Owns.pure (gives : α → List Nat) (a : α) :
    Owns (μ := μ) (ε := ε) (gives a) (Pure.pure a) gives [] := by
  have owns := Owns.pure_loses (μ := μ) (ε := ε) gives [] a
  rwa [List.append_nil] at owns

theorem Owns.fails {gives : α → List Nat} (lost : List Nat) (e : ε) :
    Owns (μ := μ) lost (Sys.answer (.error e)) gives lost := by
  intro base p start
  exact ⟨fun a same => (nomatch same), fun e' same => start⟩

theorem Owns.bind {f : α → Sys μ ε β} (first : Owns held x mid lost)
    (rest : ∀ a, Owns (mid a) (f a) gives []) : Owns held (x >>= f) gives lost := by
  intro base p start
  obtain ⟨good, bad⟩ := first base p start
  simp only [Bind.bind]
  generalize x p = out at good bad
  obtain ⟨result, p'⟩ := out
  cases result with
  | ok a => exact rest a (lost ++ base) p' (good a rfl)
  | error e => exact ⟨fun b same => (nomatch same), fun e' same => bad e rfl⟩

/-- What is lost behind a step that may fail is lost only if it does not. -/
theorem Owns.bind_loses {f : α → Sys μ ε β} (first : Owns held x mid [])
    (rest : ∀ a p, (x p).1 = .ok a → Owns (mid a) (f a) gives lost)
    (fails : ∀ e p, (x p).1 = .error e → lost = []) : Owns held (x >>= f) gives lost := by
  intro base p start
  obtain ⟨good, bad⟩ := first base p start
  have next : ∀ a, (x p).1 = .ok a → Owns (mid a) (f a) gives lost := fun a => rest a p
  have none : ∀ e, (x p).1 = .error e → lost = [] := fun e => fails e p
  simp only [Bind.bind]
  generalize x p = out at good bad next none
  obtain ⟨result, p'⟩ := out
  cases result with
  | ok a => exact next a rfl base p' (good a rfl)
  | error e =>
      refine ⟨fun b same => (nomatch same), fun e' same => ?_⟩
      rw [none e rfl]
      exact bad e rfl

theorem Owns.answer (result : Except ε α) :
    Owns (μ := μ) [] (Sys.answer result) (fun _ => []) [] := by
  intro base p start
  exact ⟨fun a same => start, fun e same => start⟩

theorem Owns.mounting (mountpoint : μ) (done : Bool) (result : Except ε α) :
    Owns [] (Sys.mounting mountpoint done result) (fun _ => []) [] := by
  intro base p start
  exact ⟨fun a same => start, fun e same => start⟩

theorem Owns.opening (fds : α → List Nat) (result : Except ε α) :
    Owns (μ := μ) [] (Sys.opening fds result) fds [] := by
  intro base p start
  cases result with
  | ok a =>
      refine ⟨?_, fun e same => (nomatch same)⟩
      intro b same
      cases same
      exact start.append_left (fds a)
  | error e => exact ⟨fun b same => (nomatch same), fun e' same => start⟩

theorem Owns.close (fd : Nat) (held : List Nat) :
    Owns (μ := μ) (ε := ε) (fd :: held) (Sys.close fd) (fun _ => held) [] := by
  intro base p start
  refine ⟨?_, fun e same => (nomatch same)⟩
  intro a same
  have closed := start.erase fd
  rwa [List.cons_append, List.erase_cons_head] at closed

theorem Owns.mapErr {gives : α → List Nat} (owns : Owns held x gives lost) (f : ε → ε') :
    Owns held (x.mapErr f) gives lost := by
  intro base p start
  obtain ⟨good, bad⟩ := owns base p start
  simp only [Sys.mapErr]
  generalize x p = out at good bad
  obtain ⟨result, p'⟩ := out
  cases result with
  | ok a =>
      exact ⟨fun b same => Except.ok.inj same ▸ good a rfl, fun e same => (nomatch same)⟩
  | error e => exact ⟨fun b same => (nomatch same), fun e' same => bad e rfl⟩

/-- A body that leaves a descriptor alone, in the scope of its owner. -/
theorem Owns.owning {gives : α → List Nat} (owns : Owns held x gives lost) (fd : Nat) :
    Owns (fd :: held) (x.owning fd) (fun a => fd :: gives a) lost := by
  intro base p start
  obtain ⟨good, bad⟩ := owns (fd :: base) p (start.trans List.perm_middle.symm)
  simp only [Sys.owning]
  generalize x p = out at good bad
  obtain ⟨result, p'⟩ := out
  cases result with
  | ok a =>
      refine ⟨?_, fun e same => (nomatch same)⟩
      intro b same
      cases same
      have front : (gives a ++ lost ++ fd :: base).Perm (fd :: (gives a ++ lost ++ base)) :=
        List.perm_middle
      simp only [List.append_assoc] at front
      exact (good a rfl).trans front
  | error e =>
      refine ⟨fun b same => (nomatch same), ?_⟩
      intro e' same
      have closed := ((bad e rfl).trans List.perm_middle).erase fd
      rwa [List.erase_cons_head] at closed

/-! ### Results that do not depend on the process -/

def Blind (x : Sys μ ε α) : Prop := ∀ p p', (x p).1 = (x p').1

theorem Blind.answer (result : Except ε α) : Blind (μ := μ) (Sys.answer result) := fun _ _ => rfl

theorem Blind.mounting (mountpoint : μ) (done : Bool) (result : Except ε α) :
    Blind (Sys.mounting mountpoint done result) := fun _ _ => rfl

theorem Blind.opening (fds : α → List Nat) (result : Except ε α) :
    Blind (μ := μ) (Sys.opening fds result) := by
  intro p p'
  cases result with
  | ok a => rfl
  | error e => rfl

theorem Blind.bind {f : α → Sys μ ε β} (first : Blind x) (rest : ∀ a, Blind (f a)) :
    Blind (x >>= f) := by
  intro p p'
  have same := first p p'
  simp only [Bind.bind]
  generalize x p = out at same
  generalize x p' = out' at same
  obtain ⟨result, q⟩ := out
  obtain ⟨result', q'⟩ := out'
  cases same
  cases result with
  | ok a => exact rest a q q'
  | error e => rfl

theorem owning_result (fd : Nat) (p : Process μ) : (x.owning fd p).1 = (x p).1 := by
  simp only [owning]
  generalize x p = out
  obtain ⟨result, p'⟩ := out
  cases result with
  | ok a => rfl
  | error e => rfl

theorem Blind.owning (blind : Blind x) (fd : Nat) : Blind (x.owning fd) := by
  intro p p'
  rw [owning_result, owning_result]
  exact blind p p'

/-! ### What is mounted -/

/-- Nothing is mounted or unmounted. -/
def Still (x : Sys μ ε α) : Prop := ∀ p, (x p).2.mounts = p.mounts

theorem bind_ok {f : α → Sys μ ε β} {p p' : Process μ} {b : β}
    (done : (x >>= f) p = (.ok b, p')) : ∃ a p₁, x p = (.ok a, p₁) ∧ f a p₁ = (.ok b, p') := by
  simp only [Bind.bind] at done
  split at done
  · next a p₁ first => exact ⟨a, p₁, first, done⟩
  · cases done

theorem bind_error {f : α → Sys μ ε β} {p p' : Process μ} {e : ε}
    (failed : (x >>= f) p = (.error e, p')) :
    x p = (.error e, p') ∨ ∃ a p₁, x p = (.ok a, p₁) ∧ f a p₁ = (.error e, p') := by
  simp only [Bind.bind] at failed
  split at failed
  · next a p₁ first => exact .inr ⟨a, p₁, first, failed⟩
  · next e' p₁ first =>
      cases failed
      exact .inl first

theorem owning_ok {fd : Nat} {p p' : Process μ} {a : α} (done : x.owning fd p = (.ok a, p')) :
    x p = (.ok a, p') := by
  simp only [owning] at done
  split at done
  · next a p₁ first =>
      cases done
      exact first
  · cases done

theorem owning_error {fd : Nat} {p p' : Process μ} {e : ε}
    (failed : x.owning fd p = (.error e, p')) :
    ∃ p₁, x p = (.error e, p₁) ∧ p'.mounts = p₁.mounts := by
  simp only [owning] at failed
  split at failed
  · cases failed
  · next e' p₁ first =>
      cases failed
      exact ⟨p₁, first, rfl⟩

theorem owning_mounts (fd : Nat) (p : Process μ) :
    (x.owning fd p).2.mounts = (x p).2.mounts := by
  simp only [owning]
  generalize x p = out
  obtain ⟨result, p'⟩ := out
  cases result with
  | ok a => rfl
  | error e => rfl

theorem mapErr_ok {f : ε → ε'} {p p' : Process μ} {a : α}
    (done : x.mapErr f p = (.ok a, p')) : x p = (.ok a, p') := by
  simp only [mapErr] at done
  generalize x p = out at done ⊢
  obtain ⟨result, p₁⟩ := out
  cases result with
  | ok b =>
      cases done
      rfl
  | error e => cases done

theorem mapErr_error {f : ε → ε'} {p p' : Process μ} {e : ε'}
    (failed : x.mapErr f p = (.error e, p')) : ∃ e', e = f e' := by
  simp only [mapErr] at failed
  generalize x p = out at failed
  obtain ⟨result, p₁⟩ := out
  cases result with
  | ok b => cases failed
  | error e' =>
      cases failed
      exact ⟨e', rfl⟩

theorem Still.of {x : Sys μ ε α} (still : Still x) {p p' : Process μ} {result : Except ε α}
    (done : x p = (result, p')) : p'.mounts = p.mounts := by
  rw [← still p, done]

theorem Still.answer (result : Except ε α) : Still (μ := μ) (Sys.answer result) := fun _ => rfl

theorem Still.opening (fds : α → List Nat) (result : Except ε α) :
    Still (μ := μ) (Sys.opening fds result) := by
  intro p
  cases result with
  | ok a => rfl
  | error e => rfl

theorem Still.owning (still : Still x) (fd : Nat) : Still (x.owning fd) :=
  fun p => (owning_mounts fd p).trans (still p)

theorem Still.bind {f : α → Sys μ ε β} (first : Still x) (rest : ∀ a, Still (f a)) :
    Still (x >>= f) := by
  intro p
  have same := first p
  simp only [Bind.bind]
  generalize x p = out at same
  obtain ⟨result, p'⟩ := out
  cases result with
  | ok a => exact (rest a p').trans same
  | error e => exact same

end Sys
end ProxmoxFuse
