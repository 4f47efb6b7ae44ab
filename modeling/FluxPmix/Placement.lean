import Mathlib.Data.List.Basic
import Mathlib.Order.Lattice

/-! Items placed at places, one after the other. An item's local rank counts the earlier items at its
place; where the places are in order, the items of each place form a block. -/
namespace Placement

section
variable {κ : Type} [DecidableEq κ] {places : List κ}

/-- The earlier items at the place of item `i`. -/
def localRank (places : List κ) (i : Fin places.length) : Nat := places.countBefore places[i] i

theorem localRank_lt (i : Fin places.length) : localRank places i < places.count places[i] :=
  List.countBefore_lt_count_getElem

theorem localRank_take (i : Fin places.length) : localRank places i = (places.take i).count places[i] :=
  List.countBefore_eq_count_take

/-- An item is the one of its local rank among those of its place. -/
theorem getElem_localRank (i : Fin places.length) :
    (places.idxsOf places[i])[localRank places i]? = some i.val := by
  have within : localRank places i < (places.idxsOf places[i]).length := by
    rw [List.length_idxsOf]
    exact localRank_lt i
  rw [List.getElem?_eq_getElem within, List.getElem_idxOf_eq_idxOfNth]
  exact congrArg some List.idxOfNth_countBefore_getElem

theorem localRank_inj {i j : Fin places.length} (samePlace : places[i] = places[j])
    (sameRank : localRank places i = localRank places j) : i = j := by
  have first := getElem_localRank i
  rw [samePlace, sameRank, getElem_localRank j] at first
  exact Fin.ext (Option.some.inj first).symm

theorem localRank_surj (ranked : r < places.count k) :
    ∃ i : Fin places.length, places[i] = k ∧ localRank places i = r := by
  have within := List.idxOfNth_lt_length_of_lt_count ranked
  have placed : places[places.idxOfNth k r] = k := List.getElem_idxOfNth_eq
  refine ⟨⟨places.idxOfNth k r, within⟩, placed, ?_⟩
  rw [localRank, Fin.getElem_fin, placed]
  exact List.countBefore_idxOfNth_of_lt_count ranked

end

section
variable {κ : Type} [LinearOrder κ] {places : List κ}

/-- The items at the places below one. -/
def offset (places : List κ) (k : κ) : Nat := places.countP (· < k)

theorem offset_add_count (places : List κ) (k : κ) :
    offset places k + places.count k = places.countP (· ≤ k) := by
  induction places with
  | nil => rfl
  | cons place rest ih =>
    rw [offset] at ih ⊢
    simp only [List.countP_cons, List.count_cons, ← ih, decide_eq_true_eq, beq_iff_eq]
    rcases lt_trichotomy place k with below | same | above
    · simp only [below, below.ne, below.le, if_true, if_false]
      omega
    · simp only [same, lt_irrefl, le_refl, if_true, if_false]
      omega
    · simp only [above.ne', above.not_ge, above.not_gt, if_false, Nat.add_zero]

/-- Below a place there are no more items than before any item at a higher one. -/
theorem offset_mono {low high : κ} (below : low < high) (places : List κ) :
    offset places low + places.count low ≤ offset places high := by
  rw [offset_add_count, offset]
  apply List.countP_mono_left
  intro place _ reached
  simp only [decide_eq_true_eq] at reached ⊢
  exact lt_of_le_of_lt reached below

/-- The blocks of two places do not overlap. -/
theorem block_unique {i : Nat} {one other : κ}
    (inOne : offset places one ≤ i ∧ i < offset places one + places.count one)
    (inOther : offset places other ≤ i ∧ i < offset places other + places.count other) : one = other := by
  by_contra different
  rcases lt_or_gt_of_ne different with below | above
  · have apart := offset_mono below places
    omega
  · have apart := offset_mono above places
    omega

theorem offset_le_of_sorted (sorted : places.Pairwise (· ≤ ·)) (within : i < places.length) :
    offset places places[i] ≤ i := by
  -- nothing from item i on is below its place
  have rest : (places.drop i).countP (· < places[i]) = 0 := by
    rw [List.countP_eq_zero]
    intro place member
    obtain ⟨j, bound, rfl⟩ := List.mem_drop_iff_getElem.mp member
    rcases Nat.eq_zero_or_pos j with rfl | later
    · simp
    · have above := List.pairwise_iff_getElem.mp sorted i (i + j) within (by omega) (by omega)
      simpa using above
  have split := congrArg (List.countP (· < places[i])) (List.take_append_drop i places)
  rw [List.countP_append, rest] at split
  have bound := List.countP_le_length (p := (· < places[i])) (l := places.take i)
  rw [List.length_take] at bound
  rw [offset]
  omega

theorem lt_offset_of_sorted (sorted : places.Pairwise (· ≤ ·)) (within : i < places.length) :
    i < offset places places[i] + places.count places[i] := by
  -- nothing up to item i is above its place
  have front : (places.take (i + 1)).countP (· ≤ places[i]) = (places.take (i + 1)).length := by
    rw [List.countP_eq_length]
    intro place member
    obtain ⟨j, bound, rfl⟩ := List.mem_take_iff_getElem.mp member
    have upTo : j ≤ i := Nat.le_of_lt_succ (Nat.lt_of_lt_of_le bound (Nat.min_le_left _ _))
    rcases Nat.eq_or_lt_of_le upTo with rfl | earlier
    · simp
    · have below := List.pairwise_iff_getElem.mp sorted j i (by omega) within earlier
      simpa using below
  have part : (places.take (i + 1)).countP (· ≤ places[i]) ≤ places.countP (· ≤ places[i]) :=
    (List.take_sublist (i + 1) places).countP_le
  rw [front, List.length_take] at part
  rw [offset_add_count]
  omega

/-- The places are in order exactly when every item lies in the block of its place. -/
theorem sorted_iff : places.Pairwise (· ≤ ·) ↔ ∀ i (within : i < places.length),
    offset places places[i] ≤ i ∧ i < offset places places[i] + places.count places[i] := by
  constructor
  · intro sorted i within
    exact ⟨offset_le_of_sorted sorted within, lt_offset_of_sorted sorted within⟩
  · intro blocks
    rw [List.pairwise_iff_getElem]
    intro i j within bound earlier
    by_contra disordered
    have apart := offset_mono (lt_of_not_ge disordered) places
    have first := (blocks i within).1
    have second := (blocks j bound).2
    omega

end

end Placement
