import Mathlib.Algebra.BigOperators.Group.Finset.Basic
import Mathlib.Algebra.BigOperators.Group.Finset.Sigma
import Mathlib.Data.Finset.Card
import Mathlib.Logic.Relation

/-! Trees given by a parent function on arbitrary nodes. Every node contributes to exactly
one child of each of its ancestors, so a sum over a subtree splits by children; induction
runs from the leaves to the root. -/
noncomputable section
namespace ParentTree
open Classical

variable {ι M : Type*} {parent : ι → Option ι} {depth : ι → ℕ}

/-- A finite set of nodes whose parents lie in the set and strictly closer to the root. -/
structure Tree (parent : ι → Option ι) (depth : ι → ℕ) (root : ι) (nodes : Finset ι) : Prop where
  root_mem : root ∈ nodes
  parent_mem : ∀ {c p}, c ∈ nodes → parent c = some p → p ∈ nodes
  descends : ∀ {c p}, parent c = some p → depth p < depth c
  orphan : ∀ {c}, c ∈ nodes → (parent c = none ↔ c = root)

/-- `s` is `p` itself or one of its descendants. -/
def Below (parent : ι → Option ι) (s p : ι) : Prop :=
  Relation.ReflTransGen (fun c q => parent c = some q) s p

namespace Below

theorem depth_le (descends : ∀ {c p}, parent c = some p → depth p < depth c)
    (below : Below parent s p) : depth p ≤ depth s := by
  induction below with
  | refl => rfl
  | tail _ last ih => exact (descends last).le.trans ih

/-- Two ancestors of one node are ordered, because the parent is a function. -/
theorem linear (first : Below parent s a) (second : Below parent s b) :
    Below parent a b ∨ Below parent b a := by
  induction first with
  | refl => exact .inl second
  | @tail a a' _ up ih =>
    rcases ih with below | below
    · rcases Relation.ReflTransGen.cases_head below with rfl | ⟨next, up', rest⟩
      · exact .inr (.single up)
      · cases Option.some.inj (up.symm.trans up')
        exact .inl rest
    · exact .inr (below.tail up)

theorem siblings (descends : ∀ {c p}, parent c = some p → depth p < depth c)
    (left : parent c = some p) (right : parent d = some p)
    (first : Below parent s c) (second : Below parent s d) : c = d := by
  have strict : ∀ {c d}, parent c = some p → parent d = some p → Below parent c d → c = d := by
    intro c d left right below
    rcases Relation.ReflTransGen.cases_head below with same | ⟨next, up, rest⟩
    · exact same
    · cases Option.some.inj (left.symm.trans up)
      have := depth_le descends rest
      have := descends right
      omega
  rcases linear first second with below | below
  · exact strict left right below
  · exact (strict right left below).symm

end Below

def children (parent : ι → Option ι) (nodes : Finset ι) (p : ι) : Finset ι :=
  nodes.filter (fun c => parent c = some p)

def subtree (parent : ι → Option ι) (nodes : Finset ι) (p : ι) : Finset ι :=
  nodes.filter (fun s => Below parent s p)

variable {root : ι} {nodes : Finset ι}

theorem mem_children : c ∈ children parent nodes p ↔ c ∈ nodes ∧ parent c = some p := by
  simp [children]

theorem mem_subtree : s ∈ subtree parent nodes p ↔ s ∈ nodes ∧ Below parent s p := by
  simp [subtree]

namespace Tree

theorem ne_root (tree : Tree parent depth root nodes) (member : c ∈ nodes) (up : parent c = some p) :
    c ≠ root := by
  intro same
  rw [(tree.orphan member).mpr same] at up
  contradiction

theorem below_mem (tree : Tree parent depth root nodes) (member : s ∈ nodes)
    (below : Below parent s p) : p ∈ nodes := by
  induction below with
  | refl => exact member
  | tail _ up ih => exact tree.parent_mem ih up

theorem mem_subtree_iff (tree : Tree parent depth root nodes) (member : p ∈ nodes) :
    s ∈ subtree parent nodes p ↔
      s = p ∨ ∃ c ∈ children parent nodes p, s ∈ subtree parent nodes c := by
  simp only [mem_subtree, mem_children]
  constructor
  · rintro ⟨inside, below⟩
    rcases Relation.ReflTransGen.cases_tail below with same | ⟨c, below, up⟩
    · exact .inl same.symm
    · exact .inr ⟨c, ⟨tree.below_mem inside below, up⟩, inside, below⟩
  · rintro (rfl | ⟨c, ⟨_, up⟩, inside, below⟩)
    · exact ⟨member, .refl⟩
    · exact ⟨inside, below.tail up⟩

theorem subtree_eq (tree : Tree parent depth root nodes) (member : p ∈ nodes) :
    subtree parent nodes p =
      insert p ((children parent nodes p).biUnion (subtree parent nodes)) := by
  ext s
  rw [tree.mem_subtree_iff member, Finset.mem_insert, Finset.mem_biUnion]

/-- A subtree's total is its own node's share plus its children's totals. -/
theorem sum_subtree [AddCommMonoid M] (tree : Tree parent depth root nodes) (member : p ∈ nodes)
    (f : ι → M) : ∑ s ∈ subtree parent nodes p, f s =
      f p + ∑ c ∈ children parent nodes p, ∑ s ∈ subtree parent nodes c, f s := by
  have fresh : p ∉ (children parent nodes p).biUnion (subtree parent nodes) := by
    simp only [Finset.mem_biUnion, mem_children, mem_subtree, not_exists, not_and]
    intro c child _ below
    have := below.depth_le tree.descends
    have := tree.descends child.2
    omega
  have disjoint : ((children parent nodes p : Finset ι) : Set ι).PairwiseDisjoint
      (subtree parent nodes) := by
    intro c left d right different
    refine Finset.disjoint_left.mpr (fun s first second => different ?_)
    exact Below.siblings tree.descends (mem_children.mp left).2 (mem_children.mp right).2
      (mem_subtree.mp first).2 (mem_subtree.mp second).2
  rw [tree.subtree_eq member, Finset.sum_insert fresh, Finset.sum_biUnion disjoint]

/-- Walking up from any node of the tree arrives at the root. -/
theorem root_induction (tree : Tree parent depth root nodes) {P : ι → Prop} (atRoot : P root)
    (step : ∀ c ∈ nodes, ∀ p, parent c = some p → P p → P c) : ∀ s ∈ nodes, P s := by
  suffices every : ∀ bound s, s ∈ nodes → depth s < bound → P s from
    fun s member => every (depth s + 1) s member (Nat.lt_succ_self _)
  intro bound
  induction bound with
  | zero => intro s _ impossible; omega
  | succ bound ih =>
    intro s member shallow
    cases up : parent s with
    | none => rw [(tree.orphan member).mp up]; exact atRoot
    | some p =>
      have higher := tree.descends up
      exact step s member p up (ih p (tree.parent_mem member up) (by omega))

theorem subtree_root (tree : Tree parent depth root nodes) : subtree parent nodes root = nodes := by
  refine Finset.filter_true_of_mem (tree.root_induction (P := fun s => Below parent s root) .refl ?_)
  intro c _ p up below
  exact .head up below

/-- A property that every node inherits from all its children holds everywhere. -/
theorem leaf_induction (tree : Tree parent depth root nodes) {P : ι → Prop}
    (step : ∀ p ∈ nodes, (∀ c ∈ children parent nodes p, P c) → P p) : ∀ s ∈ nodes, P s := by
  let height := nodes.sup depth
  suffices every : ∀ bound s, s ∈ nodes → height < depth s + bound → P s from
    fun s member => every (height + 1) s member (by omega)
  intro bound
  induction bound with
  | zero =>
    intro s member deep
    have : depth s ≤ height := Finset.le_sup member
    omega
  | succ bound ih =>
    intro s member deep
    refine step s member (fun c child => ?_)
    have lower := tree.descends (mem_children.mp child).2
    exact ih c (mem_children.mp child).1 (by omega)

end Tree

/-! ### The `d`-ary numbering -/

section
variable {d c p size : Nat}

/-- Nodes numbered level by level, `d` to each parent. -/
def karyUp (d c : Nat) : Option Nat := if c = 0 then none else some ((c - 1) / d)

theorem karyUp_some : karyUp d c = some p ↔ 0 < c ∧ (c - 1) / d = p := by
  by_cases root : c = 0
  · simp [karyUp, root]
  · simp [karyUp, root, Nat.pos_of_ne_zero root]

theorem karyUp_below (up : karyUp d c = some p) : p < c := by
  obtain ⟨below, rfl⟩ := karyUp_some.mp up
  have := Nat.div_le_self (c - 1) d
  omega

theorem kary_tree (positive : 0 < size) : Tree (karyUp d) id 0 (Finset.range size) where
  root_mem := Finset.mem_range.mpr positive
  parent_mem := by
    intro c p member up
    exact Finset.mem_range.mpr ((karyUp_below up).trans (Finset.mem_range.mp member))
  descends := karyUp_below
  orphan := by
    intro c _
    simp [karyUp]

theorem karyUp_child (offset : j < d) (p : Nat) : karyUp d (d * p + j + 1) = some p := by
  refine karyUp_some.mpr ⟨Nat.succ_pos _, ?_⟩
  rw [Nat.add_sub_cancel, Nat.mul_add_div (by omega), Nat.div_eq_of_lt offset, Nat.add_zero]

theorem karyUp_offset (width : 0 < d) (up : karyUp d c = some p) : ∃ j < d, c = d * p + j + 1 := by
  obtain ⟨below, rfl⟩ := karyUp_some.mp up
  refine ⟨(c - 1) % d, Nat.mod_lt _ width, ?_⟩
  have := Nat.div_add_mod (c - 1) d
  omega

/-- A node's children are its numbers that fall inside. -/
theorem kary_children_card (width : 0 < d) (p size : Nat) :
    (children (karyUp d) (Finset.range size) p).card =
      ((Finset.range d).filter (fun j => d * p + j + 1 < size)).card := by
  refine Finset.card_nbij' (fun c => c - (d * p + 1)) (fun j => d * p + j + 1) ?_ ?_ ?_ ?_
  · intro c child
    obtain ⟨inside, up⟩ := mem_children.mp child
    obtain ⟨j, offset, rfl⟩ := karyUp_offset width up
    have same : d * p + j + 1 - (d * p + 1) = j := by omega
    simpa [same, offset] using inside
  · intro j member
    obtain ⟨offset, inside⟩ := Finset.mem_filter.mp member
    exact mem_children.mpr ⟨Finset.mem_range.mpr inside, karyUp_child (Finset.mem_range.mp offset) p⟩
  · intro c child
    obtain ⟨j, _, rfl⟩ := karyUp_offset width (mem_children.mp child).2
    dsimp only
    omega
  · intro j _
    dsimp only
    omega

end

end ParentTree
end
