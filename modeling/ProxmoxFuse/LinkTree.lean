import Mathlib.Data.List.Induction
import Mathlib.Data.List.Nodup
import Mathlib.Logic.Function.Basic

/-!
# Trees kept by link counts

Nodes hold other nodes under names; every node counts the places that hold it and
remembers the node it was created in. `Sound` is the invariant under which the
count is one for what is held and zero for what is not: `loose` lists nodes that
were taken out of a directory and still have the count of the place they left.
-/

structure LinkNode (ι : Type) where
  links : Nat
  up : ι

structure LinkTree (ι κ : Type) where
  node : ι → Option (LinkNode ι)
  child : ι → κ → Option ι

namespace LinkTree
variable {ι κ : Type}

/-- A node somebody holds: where it was created, counted once. -/
structure Held (t : LinkTree ι κ) (root d c : ι) : Prop where
  holder : ∃ n, t.node d = some n
  node : t.node c = some ⟨1, d⟩
  below : c ≠ root

structure Sound (t : LinkTree ι κ) (root : ι) (loose : List ι) : Prop where
  root_node : ∃ up, t.node root = some ⟨1, up⟩
  held : ∀ d k c, t.child d k = some c → t.Held root d c ∧ c ∉ loose
  once : ∀ d k k' c, t.child d k = some c → t.child d k' = some c → k = k'
  loose_nodup : loose.Nodup
  loose_node : ∀ c ∈ loose, c ≠ root ∧ ∃ up, t.node c = some ⟨1, up⟩
  unheld : ∀ c n, t.node c = some n → c ≠ root → c ∉ loose → (∀ d k, t.child d k ≠ some c) →
    n.links = 0
  acyclic : ∃ rank : ι → Nat, ∀ d k c, t.child d k = some c → rank d < rank c

variable {t : LinkTree ι κ} {root : ι} {loose : List ι}

theorem Sound.holder_unique (s : Sound t root loose) {d d' : ι} {k k' : κ} {c : ι}
    (here : t.child d k = some c) (there : t.child d' k' = some c) : d = d' ∧ k = k' := by
  have one := (s.held d k c here).1.node
  rw [(s.held d' k' c there).1.node] at one
  cases one
  exact ⟨rfl, s.once d k k' c here there⟩

theorem Sound.child_ne (s : Sound t root loose) {d c : ι} {k : κ} (here : t.child d k = some c) :
    d ≠ c := by
  obtain ⟨rank, below⟩ := s.acyclic
  rintro rfl
  exact absurd (below d k d here) (Nat.lt_irrefl _)

/-- What counts no link is held nowhere and not loose. -/
theorem Sound.of_links_zero (s : Sound t root loose) {i up : ι} (here : t.node i = some ⟨0, up⟩) :
    i ≠ root ∧ i ∉ loose ∧ ∀ d k, t.child d k ≠ some i := by
  refine ⟨?_, ?_, ?_⟩
  · rintro rfl
    obtain ⟨up', one⟩ := s.root_node
    rw [one] at here
    cases here
  · intro member
    obtain ⟨up', one⟩ := (s.loose_node i member).2
    rw [one] at here
    cases here
  · intro d k held
    have one := (s.held d k i held).1.node
    rw [one] at here
    cases here

variable [DecidableEq ι]

/-- Take what is under some names out of a node. -/
def cut (t : LinkTree ι κ) (d : ι) (p : κ → Prop) [DecidablePred p] : LinkTree ι κ :=
  { t with child := fun d' k => if d' = d ∧ p k then none else t.child d' k }

/-- Count one link less. -/
def dropLink (t : LinkTree ι κ) (c : ι) : LinkTree ι κ :=
  { t with
    node := fun i =>
      if i = c then (t.node c).map fun n => { n with links := n.links - 1 } else t.node i }

def remove (t : LinkTree ι κ) (i : ι) : LinkTree ι κ :=
  { t with node := fun j => if j = i then none else t.node j }

/-- A new node, held under a name. -/
def grow [DecidableEq κ] (t : LinkTree ι κ) (d : ι) (k : κ) (c : ι) : LinkTree ι κ where
  node i := if i = c then some ⟨1, d⟩ else t.node i
  child d' k' := if d' = d ∧ k' = k then some c else t.child d' k'

theorem cut_child {d : ι} {p : κ → Prop} [DecidablePred p] {d' : ι} {k : κ} {c : ι} :
    (t.cut d p).child d' k = some c ↔ ¬ (d' = d ∧ p k) ∧ t.child d' k = some c := by
  simp only [cut]
  split
  · next away => simp [away]
  · next kept => simp [kept]

/-- What is taken out becomes loose. -/
theorem Sound.cut (s : Sound t root loose) (d : ι) (p : κ → Prop) [DecidablePred p] {cs : List ι}
    (nodup : cs.Nodup) (taken : ∀ c, c ∈ cs ↔ ∃ k, p k ∧ t.child d k = some c) :
    Sound (t.cut d p) root (cs ++ loose) where
  root_node := s.root_node
  held d' k c here := by
    obtain ⟨kept, before⟩ := cut_child.mp here
    obtain ⟨held, bound⟩ := s.held d' k c before
    refine ⟨⟨held.holder, held.node, held.below⟩, ?_⟩
    rw [List.mem_append]
    rintro (away | away)
    · obtain ⟨k', chosen, there⟩ := (taken c).mp away
      obtain ⟨rfl, rfl⟩ := s.holder_unique before there
      exact kept ⟨rfl, chosen⟩
    · exact bound away
  once d' k k' c here there := s.once d' k k' c (cut_child.mp here).2 (cut_child.mp there).2
  loose_nodup := by
    refine nodup.append s.loose_nodup ?_
    intro c away member
    obtain ⟨k, _, before⟩ := (taken c).mp away
    exact (s.held d k c before).2 member
  loose_node c member := by
    rcases List.mem_append.mp member with away | member
    · obtain ⟨k, _, before⟩ := (taken c).mp away
      have held := (s.held d k c before).1
      exact ⟨held.below, d, held.node⟩
    · exact s.loose_node c member
  unheld c n here below bound nowhere := by
    refine s.unheld c n here below (fun member => bound (List.mem_append_right _ member)) ?_
    intro d' k before
    by_cases away : d' = d ∧ p k
    · obtain ⟨rfl, chosen⟩ := away
      exact bound (List.mem_append_left _ ((taken c).mpr ⟨k, chosen, before⟩))
    · exact nowhere d' k (cut_child.mpr ⟨away, before⟩)
  acyclic := by
    obtain ⟨rank, below⟩ := s.acyclic
    exact ⟨rank, fun d' k c here => below d' k c (cut_child.mp here).2⟩

/-- Counting the link down settles what was loose. -/
theorem Sound.dropLink {c : ι} (s : Sound t root (c :: loose)) :
    Sound (t.dropLink c) root loose := by
  obtain ⟨fresh, nodup⟩ := List.nodup_cons.mp s.loose_nodup
  obtain ⟨below, up, one⟩ := s.loose_node c List.mem_cons_self
  have other : ∀ {i : ι}, i ≠ c → (t.dropLink c).node i = t.node i := by
    intro i ne
    simp [LinkTree.dropLink, ne]
  have self : (t.dropLink c).node c = some ⟨0, up⟩ := by
    simp [LinkTree.dropLink, one]
  constructor
  case root_node =>
    rw [other (Ne.symm below)]
    exact s.root_node
  case held =>
    intro d k i here
    obtain ⟨held, bound⟩ := s.held d k i here
    have ne : i ≠ c := fun same => bound (same ▸ List.mem_cons_self)
    refine ⟨⟨?_, ?_, held.below⟩, fun member => bound (List.mem_cons_of_mem _ member)⟩
    · by_cases same : d = c
      · exact ⟨_, by rw [same]; exact self⟩
      · rw [other same]
        exact held.holder
    · rw [other ne]
      exact held.node
  case once => exact s.once
  case loose_nodup => exact nodup
  case loose_node =>
    intro i member
    obtain ⟨low, node⟩ := s.loose_node i (List.mem_cons_of_mem _ member)
    rw [other (fun same => fresh (same ▸ member))]
    exact ⟨low, node⟩
  case unheld =>
    intro i n here low bound nowhere
    by_cases same : i = c
    · subst same
      rw [self] at here
      cases here
      rfl
    · rw [other same] at here
      refine s.unheld i n here low ?_ nowhere
      intro member
      rcases List.mem_cons.mp member with eq | member
      · exact same eq
      · exact bound member
  case acyclic => exact s.acyclic

/-- A node that counts no link and holds nothing can go. -/
theorem Sound.remove (s : Sound t root loose) {i up : ι} (here : t.node i = some ⟨0, up⟩)
    (empty : ∀ k, t.child i k = none) : Sound (t.remove i) root loose := by
  obtain ⟨low, bound, nowhere⟩ := s.of_links_zero here
  have other : ∀ {j : ι}, j ≠ i → (t.remove i).node j = t.node j := by
    intro j ne
    simp [LinkTree.remove, ne]
  constructor
  case root_node =>
    rw [other (Ne.symm low)]
    exact s.root_node
  case held =>
    intro d k c child
    obtain ⟨held, loose'⟩ := s.held d k c child
    have holder : d ≠ i := by
      rintro rfl
      have none : t.child d k = none := empty k
      rw [show t.child d k = some c from child] at none
      cases none
    refine ⟨⟨?_, ?_, held.below⟩, loose'⟩
    · rw [other holder]
      exact held.holder
    · rw [other (fun same => nowhere d k (same ▸ child))]
      exact held.node
  case once => exact s.once
  case loose_nodup => exact s.loose_nodup
  case loose_node =>
    intro c member
    rw [other (fun same => bound (same ▸ member))]
    exact s.loose_node c member
  case unheld =>
    intro c n node below free nowhere'
    have ne : c ≠ i := by
      rintro rfl
      simp [LinkTree.remove] at node
    rw [other ne] at node
    exact s.unheld c n node below free nowhere'
  case acyclic => exact s.acyclic

/-- A new node grows under a name that is free. -/
theorem Sound.grow [DecidableEq κ] (s : Sound t root loose) {d : ι} {k : κ} {c : ι} {n : LinkNode ι}
    (holder : t.node d = some n) (free : t.child d k = none) (fresh : t.node c = none) :
    Sound (t.grow d k c) root loose := by
  have other : ∀ {i : ι}, i ≠ c → (t.grow d k c).node i = t.node i := by
    intro i ne
    simp [LinkTree.grow, ne]
  have self : (t.grow d k c).node c = some ⟨1, d⟩ := by simp [LinkTree.grow]
  have exists_ne : ∀ {i : ι} {m : LinkNode ι}, t.node i = some m → i ≠ c := by
    rintro i m node rfl
    rw [fresh] at node
    cases node
  have child : ∀ {d' : ι} {k' : κ} {i : ι}, (t.grow d k c).child d' k' = some i →
      (d' = d ∧ k' = k ∧ i = c) ∨ t.child d' k' = some i := by
    intro d' k' i here
    simp only [LinkTree.grow] at here
    split at here
    · next new => exact .inl ⟨new.1, new.2, by simpa using here.symm⟩
    · exact .inr here
  have old_ne : ∀ {d' : ι} {k' : κ} {i : ι}, t.child d' k' = some i → i ≠ c := by
    intro d' k' i here
    exact exists_ne (s.held d' k' i here).1.node
  obtain ⟨up, one⟩ := s.root_node
  constructor
  case root_node => exact ⟨up, by rw [other (exists_ne one), one]⟩
  case held =>
    intro d' k' i here
    rcases child here with ⟨rfl, rfl, rfl⟩ | before
    · refine ⟨⟨⟨n, ?_⟩, self, ?_⟩, ?_⟩
      · rw [other (exists_ne holder), holder]
      · exact Ne.symm (exists_ne one)
      · intro member
        obtain ⟨_, up', node⟩ := s.loose_node i member
        exact exists_ne node rfl
    · obtain ⟨held, bound⟩ := s.held d' k' i before
      obtain ⟨m, node⟩ := held.holder
      refine ⟨⟨⟨m, ?_⟩, ?_, held.below⟩, bound⟩
      · rw [other (exists_ne node), node]
      · rw [other (old_ne before), held.node]
  case once =>
    intro d' k₁ k₂ i here there
    rcases child here with ⟨rfl, rfl, rfl⟩ | before
    · rcases child there with ⟨_, rfl, _⟩ | before'
      · rfl
      · exact absurd rfl (old_ne before')
    · rcases child there with ⟨_, _, rfl⟩ | before'
      · exact absurd rfl (old_ne before)
      · exact s.once d' k₁ k₂ i before before'
  case loose_nodup => exact s.loose_nodup
  case loose_node =>
    intro i member
    obtain ⟨low, up', node⟩ := s.loose_node i member
    exact ⟨low, up', by rw [other (exists_ne node), node]⟩
  case unheld =>
    intro i m node below bound nowhere
    by_cases same : i = c
    · subst same
      exact absurd (by simp [LinkTree.grow]) (nowhere d k)
    · rw [other same] at node
      refine s.unheld i m node below bound ?_
      intro d' k' before
      by_cases new : d' = d ∧ k' = k
      · obtain ⟨rfl, rfl⟩ := new
        rw [free] at before
        cases before
      · exact nowhere d' k' (by simp only [LinkTree.grow, new, if_false]; exact before)
  case acyclic =>
    obtain ⟨rank, below⟩ := s.acyclic
    refine ⟨fun i => if i = c then rank d + 1 else rank i, ?_⟩
    intro d' k' i here
    rcases child here with ⟨rfl, rfl, rfl⟩ | before
    · simp [exists_ne holder]
    · obtain ⟨m, node⟩ := (s.held d' k' i before).1.holder
      simp only [exists_ne node, old_ne before, if_false]
      exact below d' k' i before

/-! ### Paths -/

omit [DecidableEq ι]

/-- Follow names from a node. -/
def resolve (t : LinkTree ι κ) (i : ι) : List κ → Option ι
  | [] => some i
  | k :: p => (t.child i k).bind fun c => t.resolve c p

theorem resolve_snoc (t : LinkTree ι κ) (i : ι) (p : List κ) (k : κ) :
    t.resolve i (p ++ [k]) = (t.resolve i p).bind fun d => t.child d k := by
  induction p generalizing i with
  | nil => simp [resolve]
  | cons name p ih =>
      simp only [List.cons_append, resolve]
      cases t.child i name with
      | none => rfl
      | some c => exact ih c

theorem resolve_snoc_iff {t : LinkTree ι κ} {i : ι} {p : List κ} {k : κ} {c : ι} :
    t.resolve i (p ++ [k]) = some c ↔ ∃ d, t.resolve i p = some d ∧ t.child d k = some c := by
  rw [resolve_snoc]
  exact Option.bind_eq_some_iff

/-- Paths depend on the names only. -/
theorem resolve_congr {t t' : LinkTree ι κ} (same : ∀ d k, t'.child d k = t.child d k) (i : ι)
    (p : List κ) :
    t'.resolve i p = t.resolve i p := by
  induction p generalizing i with
  | nil => rfl
  | cons k p ih => simp only [resolve, same, ih]

/-- With more names there are more paths. -/
theorem resolve_mono {t t' : LinkTree ι κ}
    (more : ∀ d k c, t'.child d k = some c → t.child d k = some c) {i c : ι} {p : List κ}
    (path : t'.resolve i p = some c) : t.resolve i p = some c := by
  induction p generalizing i with
  | nil => exact path
  | cons k p ih =>
      obtain ⟨d, step, rest⟩ := Option.bind_eq_some_iff.mp path
      simp only [resolve, more i k d step, Option.bind_some]
      exact ih rest

/-- What a path leads to is its start or held somewhere. -/
theorem reached {i : ι} {p : List κ} (path : t.resolve root p = some i) :
    i = root ∨ ∃ d k, t.child d k = some i := by
  rcases List.eq_nil_or_concat' p with rfl | ⟨p, k, rfl⟩
  · exact .inl (Option.some.inj path).symm
  · obtain ⟨d, _, here⟩ := resolve_snoc_iff.mp path
    exact .inr ⟨d, k, here⟩

/-- A path to what is held goes through its holder. -/
theorem Sound.holder_reached (s : Sound t root loose) {d c : ι} {k : κ}
    (here : t.child d k = some c) {q : List κ} (path : t.resolve root q = some c) :
    ∃ p, q = p ++ [k] ∧ t.resolve root p = some d := by
  rcases List.eq_nil_or_concat' q with rfl | ⟨p, k', rfl⟩
  · exact absurd (Option.some.inj path).symm (s.held d k c here).1.below
  · obtain ⟨d', before, there⟩ := resolve_snoc_iff.mp path
    obtain ⟨rfl, rfl⟩ := s.holder_unique here there
    exact ⟨p, rfl, before⟩

/-- No node is reached by two paths. -/
theorem Sound.path_unique (s : Sound t root loose) {p q : List κ} {i : ι}
    (one : t.resolve root p = some i) (other : t.resolve root q = some i) : p = q := by
  have root_free : ∀ d k, t.child d k ≠ some root :=
    fun d k here => (s.held d k root here).1.below rfl
  induction p using List.reverseRecOn generalizing q i with
  | nil =>
      cases Option.some.inj one
      rcases List.eq_nil_or_concat' q with rfl | ⟨q, k, rfl⟩
      · rfl
      · obtain ⟨d, _, here⟩ := resolve_snoc_iff.mp other
        exact absurd here (root_free d k)
  | append_singleton p k ih =>
      obtain ⟨d, before, here⟩ := resolve_snoc_iff.mp one
      rcases List.eq_nil_or_concat' q with rfl | ⟨q, k', rfl⟩
      · cases Option.some.inj other
        exact absurd here (root_free d k)
      · obtain ⟨d', before', here'⟩ := resolve_snoc_iff.mp other
        obtain ⟨rfl, rfl⟩ := s.holder_unique here here'
        rw [ih before before']

variable [DecidableEq ι]

/-- Cutting below a node no path leads to changes no path. -/
theorem resolve_cut_unreached {d : ι} (unreached : ∀ p, t.resolve root p ≠ some d) (P : κ → Prop)
    [DecidablePred P] (q : List κ) : (t.cut d P).resolve root q = t.resolve root q := by
  induction q using List.reverseRecOn with
  | nil => rfl
  | append_singleton q k ih =>
      rw [resolve_snoc, resolve_snoc, ih]
      cases at_ : t.resolve root q with
      | none => rfl
      | some x =>
          have ne : x ≠ d := fun same => unreached q (same ▸ at_)
          simp [cut, ne]

/-- Cutting off a leaf takes away the one path to it. -/
theorem Sound.resolve_cut_leaf [DecidableEq κ] (s : Sound t root loose) {d c : ι} {k : κ}
    (here : t.child d k = some c) (leaf : ∀ k, t.child c k = none) (q : List κ) (i : ι) :
    (t.cut d (· = k)).resolve root q = some i ↔ t.resolve root q = some i ∧ i ≠ c := by
  have below := (s.held d k c here).1.below
  induction q using List.reverseRecOn generalizing i with
  | nil =>
      simp only [resolve, Option.some.injEq]
      constructor
      · rintro rfl
        exact ⟨rfl, Ne.symm below⟩
      · exact And.left
  | append_singleton q k' ih =>
      simp only [resolve_snoc_iff, ih, cut_child]
      constructor
      · rintro ⟨x, ⟨at_, _⟩, kept, next⟩
        refine ⟨⟨x, at_, next⟩, ?_⟩
        rintro rfl
        exact kept (s.holder_unique next here)
      · rintro ⟨⟨x, at_, next⟩, other⟩
        refine ⟨x, ⟨at_, ?_⟩, ?_, next⟩
        · rintro rfl
          rw [leaf k'] at next
          cases next
        · rintro ⟨rfl, rfl⟩
          rw [here] at next
          exact other (Option.some.inj next).symm

/-- A new node is reached by the path of its holder and its name, and all else as before. -/
theorem Sound.resolve_grow [DecidableEq κ] (s : Sound t root loose) {d c : ι} {k : κ}
    {n : LinkNode ι} (holder : t.node d = some n) (free : t.child d k = none)
    (fresh : t.node c = none) (q : List κ) (i : ι) :
    (t.grow d k c).resolve root q = some i ↔
      t.resolve root q = some i ∨ (i = c ∧ ∃ p, q = p ++ [k] ∧ t.resolve root p = some d) := by
  have barren : ∀ k' x, t.child c k' ≠ some x := by
    intro k' x here
    obtain ⟨n, node⟩ := (s.held c k' x here).1.holder
    rw [fresh] at node
    cases node
  have child : ∀ x k' y, (t.grow d k c).child x k' = some y ↔
      (x = d ∧ k' = k ∧ y = c) ∨ t.child x k' = some y := by
    intro x k' y
    simp only [LinkTree.grow]
    split
    · next new =>
        obtain ⟨rfl, rfl⟩ := new
        simp [free, eq_comm]
    · next old =>
        constructor
        · exact .inr
        · rintro (⟨rfl, rfl, _⟩ | before)
          · exact absurd ⟨rfl, rfl⟩ old
          · exact before
  induction q using List.reverseRecOn generalizing i with
  | nil => simp [resolve]
  | append_singleton q k' ih =>
      simp only [resolve_snoc_iff, ih, child]
      constructor
      · rintro ⟨x, before | ⟨rfl, _⟩, ⟨rfl, rfl, rfl⟩ | step⟩
        · exact .inr ⟨rfl, q, rfl, before⟩
        · exact .inl ⟨x, before, step⟩
        · rw [fresh] at holder
          cases holder
        · exact absurd step (barren k' i)
      · rintro (⟨x, before, step⟩ | ⟨rfl, p, same, before⟩)
        · exact ⟨x, .inl before, .inr step⟩
        · obtain ⟨rfl, last⟩ := List.append_inj' same rfl
          exact ⟨d, .inl before, .inl ⟨rfl, by simpa using last, rfl⟩⟩

/-- A new node makes no path longer than by its own name. -/
theorem resolve_grow_length [DecidableEq κ] {d c i x : ι} {k : κ} (apart : c ≠ d)
    (barren : ∀ k, t.child c k = none) {p : List κ} (path : (t.grow d k c).resolve i p = some x) :
    ∃ q y, t.resolve i q = some y ∧ p.length ≤ q.length + 1 := by
  induction p generalizing i with
  | nil => exact ⟨[], i, rfl, Nat.zero_le _⟩
  | cons key p ih =>
      obtain ⟨j, step, rest⟩ := Option.bind_eq_some_iff.mp path
      simp only [grow] at step
      split at step
      · cases step
        cases p with
        | nil => exact ⟨[], i, rfl, Nat.le_refl _⟩
        | cons next p =>
            -- nothing is held by the new node
            obtain ⟨j, no, _⟩ := Option.bind_eq_some_iff.mp rest
            simp [grow, apart, barren] at no
      · obtain ⟨q, y, before, long⟩ := ih rest
        refine ⟨key :: q, y, ?_, Nat.succ_le_succ long⟩
        simp only [resolve, step, Option.bind_some, before]

end LinkTree
