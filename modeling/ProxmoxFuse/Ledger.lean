import Mathlib.Data.List.Perm.Basic
import Mathlib.Data.List.Nodup
import Mathlib.Logic.Relation

/-!
# A ledger of obligations

What a server that answers identified requests is accountable for: the
identifiers it has seen, those it took on, those it still owes an answer, and
the attempts it made to answer. An obligation is settled once, by a group of
attempts that all carry its identifier and together satisfy `ok`. When no
identifier is seen twice, every obligation is at any time either still owed and
without any attempt, or its attempts are exactly such a group.
-/

structure Ledger (ι α : Type) where
  seen : List ι
  due : List ι
  owed : List ι
  log : List α

namespace Ledger
variable {ι α : Type} [DecidableEq ι] (key : α → ι) (ok : ι → List α → Prop)

inductive Step : Ledger ι α → Ledger ι α → Prop where
  | ignore (l : Ledger ι α) (i : ι) : Step l { l with seen := l.seen ++ [i] }
  | receive (l : Ledger ι α) (i : ι) :
      Step l { l with seen := l.seen ++ [i], due := l.due ++ [i], owed := i :: l.owed }
  | settle (l : Ledger ι α) (i : ι) (rest : List ι) (attempts : List α)
      (owing : l.owed.Perm (i :: rest)) (own : ∀ a ∈ attempts, key a = i) (good : ok i attempts) :
      Step l { l with owed := rest, log := l.log ++ attempts }

abbrev Reaches : Ledger ι α → Ledger ι α → Prop := Relation.ReflTransGen (Step key ok)

/-- The attempts made for one identifier. -/
def attemptsFor (l : Ledger ι α) (i : ι) : List α := l.log.filter (key · = i)

structure Sound (l : Ledger ι α) : Prop where
  due_seen : l.due.Sublist l.seen
  owed_due : ∀ i ∈ l.owed, i ∈ l.due
  log_due : ∀ a ∈ l.log, key a ∈ l.due
  owed_nodup : l.seen.Nodup → l.owed.Nodup
  untouched : l.seen.Nodup → ∀ i ∈ l.owed, l.attemptsFor key i = []
  settled : l.seen.Nodup → ∀ i ∈ l.due, i ∉ l.owed → ok i (l.attemptsFor key i)

variable {key ok}

theorem Sound.empty : Sound key ok (⟨[], [], [], []⟩ : Ledger ι α) where
  due_seen := List.Sublist.refl _
  owed_due := by simp
  log_due := by simp
  owed_nodup _ := List.nodup_nil
  untouched := by simp
  settled := by simp

theorem attemptsFor_eq_nil {l : Ledger ι α} {i : ι} (absent : ∀ a ∈ l.log, key a ≠ i) :
    l.attemptsFor key i = [] := by
  apply List.filter_eq_nil_iff.mpr
  intro a member
  simpa using absent a member

theorem Sound.ignore {l : Ledger ι α} (s : Sound key ok l) (i : ι) :
    Sound key ok { l with seen := l.seen ++ [i] } where
  due_seen := s.due_seen.trans (List.sublist_append_left _ _)
  owed_due := s.owed_due
  log_due := s.log_due
  owed_nodup distinct := s.owed_nodup distinct.of_append_left
  untouched distinct := s.untouched distinct.of_append_left
  settled distinct := s.settled distinct.of_append_left

theorem Sound.receive {l : Ledger ι α} (s : Sound key ok l) (i : ι) :
    Sound key ok { l with seen := l.seen ++ [i], due := l.due ++ [i], owed := i :: l.owed } := by
  have fresh : (l.seen ++ [i]).Nodup → i ∉ l.due := by
    intro distinct old
    exact (List.nodup_append.mp distinct).2.2 i (s.due_seen.subset old) i (by simp) rfl
  constructor
  · exact s.due_seen.append (List.Sublist.refl _)
  · intro j member
    rcases List.mem_cons.mp member with rfl | old
    · exact List.mem_append_right _ (List.mem_singleton_self _)
    · exact List.mem_append_left _ (s.owed_due j old)
  · intro a member
    exact List.mem_append_left _ (s.log_due a member)
  · intro distinct
    have unowed : i ∉ l.owed := fun old => fresh distinct (s.owed_due i old)
    exact List.nodup_cons.mpr ⟨unowed, s.owed_nodup distinct.of_append_left⟩
  · intro distinct j member
    rcases List.mem_cons.mp member with rfl | old
    · apply attemptsFor_eq_nil
      intro a made same
      exact fresh distinct (same ▸ s.log_due a made)
    · exact s.untouched distinct.of_append_left j old
  · intro distinct j member unowed
    rcases List.mem_append.mp member with old | new
    · exact s.settled distinct.of_append_left j old fun owed => unowed (List.mem_cons_of_mem _ owed)
    · exact absurd (List.mem_singleton.mp new ▸ List.mem_cons_self) unowed

/-- The attempts for `i` after settling it are the group itself; those for any
other identifier stay what they were. -/
theorem Sound.settle {l : Ledger ι α} (s : Sound key ok l) {i : ι} {rest : List ι}
    {attempts : List α} (owing : l.owed.Perm (i :: rest)) (own : ∀ a ∈ attempts, key a = i)
    (good : ok i attempts) :
    Sound key ok { l with owed := rest, log := l.log ++ attempts } := by
  have first : i ∈ l.owed := owing.mem_iff.mpr List.mem_cons_self
  have others : ∀ j, j ≠ i → (l.log ++ attempts).filter (key · = j) = l.log.filter (key · = j) := by
    intro j different
    have none : attempts.filter (key · = j) = [] := by
      apply List.filter_eq_nil_iff.mpr
      intro a member
      have same := own a member
      simpa [same] using different.symm
    rw [List.filter_append, none, List.append_nil]
  have mine : attempts.filter (key · = i) = attempts := by
    apply List.filter_eq_self.mpr
    intro a member
    simpa using own a member
  constructor
  · exact s.due_seen
  · intro j member
    exact s.owed_due j (owing.mem_iff.mpr (List.mem_cons_of_mem _ member))
  · intro a member
    rcases List.mem_append.mp member with old | new
    · exact s.log_due a old
    · exact own a new ▸ s.owed_due i first
  · intro distinct
    exact (List.nodup_cons.mp (owing.nodup_iff.mp (s.owed_nodup distinct))).2
  · intro distinct j member
    have once := List.nodup_cons.mp (owing.nodup_iff.mp (s.owed_nodup distinct))
    have different : j ≠ i := fun same => once.1 (same ▸ member)
    exact (others j different).trans
      (s.untouched distinct j (owing.mem_iff.mpr (List.mem_cons_of_mem _ member)))
  · intro distinct j member unowed
    by_cases same : j = i
    · subst same
      have before := s.untouched distinct j first
      simp only [attemptsFor] at before ⊢
      rwa [List.filter_append, before, List.nil_append, mine]
    · have elsewhere : j ∉ l.owed := by
        intro owed
        rcases List.mem_cons.mp (owing.mem_iff.mp owed) with here | there
        · exact same here
        · exact unowed there
      have kept := s.settled distinct j member elsewhere
      simp only [attemptsFor] at kept ⊢
      rwa [others j same]

theorem Sound.step {l l' : Ledger ι α} (s : Sound key ok l) (h : Step key ok l l') :
    Sound key ok l' := by
  cases h with
  | ignore i => exact s.ignore i
  | receive i => exact s.receive i
  | settle i rest attempts owing own good => exact s.settle owing own good

theorem Sound.run {l l' : Ledger ι α} (s : Sound key ok l) (h : Reaches key ok l l') :
    Sound key ok l' := by
  induction h with
  | refl => exact s
  | tail _ last ih => exact ih.step last

/-- Old obligations may be held to another standard that they all meet. -/
theorem Sound.mono {l : Ledger ι α} {ok' : ι → List α → Prop} (s : Sound key ok l)
    (old : ∀ i ∈ l.due, ∀ as, ok i as → ok' i as) : Sound key ok' l :=
  ⟨s.due_seen, s.owed_due, s.log_due, s.owed_nodup, s.untouched,
    fun distinct i member unowed => old i member _ (s.settled distinct i member unowed)⟩

/-- If every group stops at its first accepted attempt, no attempt follows an
accepted one with its identifier. -/
theorem Sound.once {l : Ledger ι α} (s : Sound key ok l) (distinct : l.seen.Nodup)
    {accepted : α → Prop} (stops : ∀ i as, ok i as → as.Pairwise fun a _ => ¬ accepted a) :
    l.log.Pairwise fun a b => accepted a → key b ≠ key a := by
  rw [List.pairwise_iff_forall_sublist]
  intro a b pair taken same
  have made : a ∈ l.log := pair.subset (by simp)
  have unowed : key a ∉ l.owed := by
    intro owed
    have none := s.untouched distinct _ owed
    rw [attemptsFor, List.filter_eq_nil_iff] at none
    exact none a made (by simp)
  have group := stops _ _ (s.settled distinct _ (s.log_due a made) unowed)
  have both : [a, b].Sublist (l.attemptsFor key (key a)) := by
    have kept := pair.filter (key · = key a)
    simpa [attemptsFor, List.filter_cons, same] using kept
  exact List.pairwise_iff_forall_sublist.mp group both taken

end Ledger
