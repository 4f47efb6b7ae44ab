import FluxPmix.Exchange.Kary
import FluxPmix.ParentTree

/-! The shells of a job form one tree: with the default fanout, the parent each computes and
the number of children each counts belong to the same parent function. -/
namespace FluxPmix
open ParentTree

/-- The parent of shell `c` in the binary tree rooted at shell 0. -/
def shellParent (c : Nat) : Option Nat := if c = 0 then none else some ((c - 1) / 2)

theorem shellParent_some : shellParent c = some p ↔ 0 < c ∧ p = (c - 1) / 2 := by
  by_cases root : c = 0
  · simp [shellParent, root]
  · simp only [shellParent, root, if_false, Option.some.injEq]
    constructor
    · rintro rfl
      exact ⟨by omega, rfl⟩
    · rintro ⟨_, rfl⟩
      rfl

theorem shell_tree (positive : 0 < size) : Tree shellParent id 0 (Finset.range size) where
  root_mem := Finset.mem_range.mpr positive
  parent_mem := by
    intro c p member up
    obtain ⟨_, rfl⟩ := shellParent_some.mp up
    rw [Finset.mem_range] at member ⊢
    omega
  descends := by
    intro c p up
    obtain ⟨_, rfl⟩ := shellParent_some.mp up
    simp only [id_eq]
    omega
  orphan := by
    intro c _
    by_cases root : c = 0
    · simp [shellParent, root]
    · simp [shellParent, root]

/-- The exchange `fence_create` sets up on one shell of a job. -/
abbrev fenceExchange (size rank : Nat) : Exchange := exchangeCreate size rank 0

theorem fenceExchange_parent (inside : c < size) (small : size < 2 ^ 31)
    (up : shellParent c = some p) : (fenceExchange size c).parentRank.toNat = p := by
  obtain ⟨below, rfl⟩ := shellParent_some.mp up
  simp only [fenceExchange, exchangeCreate, exchangeFanout_default]
  exact karyParentof_two below (by omega)

theorem shell_children (size p : Nat) : children shellParent (Finset.range size) p =
    (if 2 * p + 1 < size then {2 * p + 1} else ∅) ∪ (if 2 * p + 2 < size then {2 * p + 2} else ∅) := by
  ext c
  simp only [mem_children, Finset.mem_range, shellParent_some, Finset.mem_union]
  constructor
  · rintro ⟨inside, below, up⟩
    rcases Nat.lt_or_ge c (2 * p + 2) with left | right
    · obtain rfl : c = 2 * p + 1 := by omega
      simp [inside]
    · obtain rfl : c = 2 * p + 2 := by omega
      simp [inside]
  · intro one
    split at one <;> split at one <;> simp at one <;> omega

/-- `child_count` counts exactly the shells that will send their requests here. -/
theorem fenceExchange_children (inside : p < size) (small : size < 2 ^ 31) :
    (fenceExchange size p).childCount = (children shellParent (Finset.range size) p).card := by
  have different : 2 * p + 1 ≠ 2 * p + 2 := by omega
  simp only [fenceExchange, exchangeCreate, exchangeFanout_default]
  rw [childCount_two inside small, shell_children]
  split <;> split <;> simp

end FluxPmix
