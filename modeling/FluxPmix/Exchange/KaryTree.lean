import FluxPmix.Exchange.Kary
import FluxPmix.ParentTree
import Mathlib.Data.Nat.Count

/-! The tree for every fanout. The shells form the `d`-ary tree as long as the products of
`kary_childof` stay below 2^32. -/
namespace FluxPmix
open ParentTree

/-- The fanout in use: 2 unless one is asked for, and never above the size. -/
def karyWidth (size : Nat) (k : Int32) : Nat := if k ≤ 0 then 2 else min k.toInt.toNat size

variable {size r c j : Nat} {k : Int32}

/-- A fanout that was asked for. -/
theorem toInt_asked (asked : ¬ k ≤ 0) : 0 < k.toInt := by
  rwa [Int32.not_le, Int32.lt_iff_toInt_lt, Int32.toInt_zero] at asked

theorem karyWidth_pos (positive : 0 < size) : 0 < karyWidth size k := by
  rw [karyWidth]
  split
  · decide
  · rename_i asked
    have := toInt_asked asked
    omega

theorem karyWidth_small (small : size < 2 ^ 31) : karyWidth size k < 2 ^ 31 := by
  rw [karyWidth]
  split <;> omega

theorem exchangeFanout_toInt (small : size < 2 ^ 31) :
    (exchangeFanout size k).toInt = karyWidth size k := by
  have sized : (Int32.ofNat size).toInt = size := Int32.toInt_ofNat_of_lt small
  rw [exchangeFanout, karyWidth]
  split
  · rfl
  · rename_i asked
    have := toInt_asked asked
    split <;> rename_i large <;> rw [Int32.lt_iff_toInt_lt, sized] at large
    · rw [sized]
      omega
    · omega

/-! ### In machine arithmetic -/

/-- A fanout as the tree functions see it. -/
structure Fanout (k : Int32) (width : Nat) : Prop where
  signed : k.toInt = width
  positive : 0 < width
  small : width < 2 ^ 31

theorem exchangeFanout_width (positive : 0 < size) (small : size < 2 ^ 31) :
    Fanout (exchangeFanout size k) (karyWidth size k) :=
  ⟨exchangeFanout_toInt small, karyWidth_pos positive, karyWidth_small small⟩

theorem Fanout.unsigned (fanout : Fanout k d) : k.toUInt32.toNat = d := by
  have nonneg : 0 ≤ k := by
    rw [Int32.le_iff_toInt_le, fanout.signed]
    simp
  rw [Int32.toNat_toUInt32_of_le nonneg, Int32.toNatClampNeg, fanout.signed, Int.toNat_natCast]

theorem Fanout.pos (fanout : Fanout k d) : 0 < k := by
  rw [Int32.lt_iff_toInt_lt, fanout.signed]
  simpa using fanout.positive

theorem uint32_toNat (small : n < 2 ^ 32) : (UInt32.ofNat n).toNat = n := by
  rw [UInt32.toNat_ofNat', Nat.mod_eq_of_lt small]

theorem Fanout.ofNat (fanout : Fanout k d) : k.toUInt32 = .ofNat d := by
  apply UInt32.toNat_inj.mp
  rw [fanout.unsigned, uint32_toNat (by have := fanout.small; omega)]

theorem uint32_pred (positive : 0 < n) : UInt32.ofNat n - 1 = .ofNat (n - 1) := by
  cases n with
  | zero => contradiction
  | succ n =>
    have succ : UInt32.ofNat (n + 1) = .ofNat n + 1 := UInt32.ofNat_add n 1
    simp [succ]

/-- The rounding division is the division of what is left after the first number. -/
theorem karyParentof_width (fanout : Fanout k d) (below : 0 < c) (small : c < 2 ^ 31) :
    (karyParentof k (.ofNat c)).toNat = (c - 1) / d := by
  have narrow := fanout.small
  have nonzero : UInt32.ofNat c ≠ 0 := by
    rw [ne_eq, ← UInt32.toNat_inj, uint32_toNat (by omega), UInt32.toNat_zero]
    omega
  rw [karyParentof, if_neg (by simpa [nonzero] using fanout.pos)]
  split
  · rename_i one
    have : d = 1 := by simpa [one] using fanout.signed.symm
    rw [uint32_pred below, uint32_toNat (by omega), this, Nat.div_one]
  · have ring (a b : UInt32) : a + (b + 1) - 2 = a + b - 1 := by grind
    have rounded : (d + c - 1) / d = (c - 1) / d + 1 := by
      rw [show d + c - 1 = d + (c - 1) by omega, Nat.add_div_left _ fanout.positive]
    have quotient : (UInt32.ofNat (d + c - 1)) / .ofNat d = .ofNat ((c - 1) / d + 1) := by
      apply UInt32.toNat_inj.mp
      have bounded := Nat.div_le_self (c - 1) d
      rw [UInt32.toNat_div, uint32_toNat (by omega), uint32_toNat (by omega), uint32_toNat (by omega), rounded]
    rw [fanout.ofNat, ring, ← UInt32.ofNat_add, uint32_pred (by omega), quotient,
      uint32_pred (Nat.succ_pos _)]
    have bounded := Nat.div_le_self (c - 1) d
    exact uint32_toNat (by omega)

theorem karyChildof_width (fanout : Fanout k d) (offset : j < d) (small : size < 2 ^ 31) (r : Nat) :
    karyChildof k (.ofNat size) (.ofNat r) (.ofNat j) =
      if (d * r + j + 1) % 2 ^ 32 < size then .ofNat (d * r + j + 1) else karyNone := by
  have narrow := fanout.small
  have index : (Int32.ofNat j).toInt = j := Int32.toInt_ofNat_of_lt (by omega)
  have guarded : 0 < k ∧ 0 ≤ Int32.ofNat j ∧ Int32.ofNat j < k := by
    refine ⟨fanout.pos, ?_, ?_⟩
    · rw [Int32.le_iff_toInt_le, index]
      simp
    · rw [Int32.lt_iff_toInt_lt, index, fanout.signed]
      exact_mod_cast offset
  have node : k.toUInt32 * (.ofNat r + 1) - (k - 2).toUInt32 + (Int32.ofNat j).toUInt32 - 1 =
      .ofNat (d * r + j + 1) := by
    have ring (k i j : UInt32) : k * (i + 1) - (k - 2) + j - 1 = k * i + j + 1 := by grind
    rw [Int32.toUInt32_sub, fanout.ofNat]
    refine (ring _ _ _).trans ?_
    rw [UInt32.ofNat_add, UInt32.ofNat_add, UInt32.ofNat_mul]
    rfl
  rw [karyChildof, if_pos guarded, node]
  simp only [UInt32.lt_iff_toNat_lt, UInt32.toNat_ofNat', Nat.mod_eq_of_lt (show size < 2 ^ 32 by omega)]

/-! ### Consistency -/

/-- The ranks that `kary_childof` names as the children of `i`. -/
def karyChildren (k : Int32) (size i : UInt32) : List UInt32 :=
  ((List.range k.toInt.toNat).map (fun j => karyChildof k size i (.ofNat j))).filter (· ≠ karyNone)

/-- The shells agree on who sends to whom. -/
structure KaryConsistent (size : Nat) (k : Int32) : Prop where
  /-- Every shell awaits as many requests as there are ranks that send to it. -/
  counted : ∀ r < size, (exchangeCreate size r k).childCount =
    ((Finset.range size).filter (fun c => 0 < c ∧ (exchangeCreate size c k).parentRank.toNat = r)).card
  rising : ∀ c, 0 < c → c < size → (exchangeCreate size c k).parentRank.toNat < c
  disjoint : ∀ r < size, ∀ q < size, r ≠ q → List.Disjoint
    (karyChildren (exchangeFanout size k) (.ofNat size) (.ofNat r))
    (karyChildren (exchangeFanout size k) (.ofNat size) (.ofNat q))
  /-- The shells that await a rank are the one it sends to. -/
  awaited : ∀ c, 0 < c → c < size → ∀ r < size,
    .ofNat c ∈ karyChildren (exchangeFanout size k) (.ofNat size) (.ofNat r) ↔
      (exchangeCreate size c k).parentRank.toNat = r
  rooted : ∀ r < size, ∃ n, (fun c => (exchangeCreate size c k).parentRank.toNat)^[n] r = 0

section
variable (positive : 0 < size) (small : size < 2 ^ 31)
include positive small

theorem exchangeCreate_parent (below : 0 < c) (inside : c < size) :
    (exchangeCreate size c k).parentRank.toNat = (c - 1) / karyWidth size k :=
  karyParentof_width (exchangeFanout_width positive small) below (by omega)

theorem exchangeCreate_parent_some (inside : c < size) : karyUp (karyWidth size k) c = some p ↔
    0 < c ∧ (exchangeCreate size c k).parentRank.toNat = p := by
  rw [karyUp_some]
  constructor
  · rintro ⟨below, up⟩
    exact ⟨below, (exchangeCreate_parent positive small below inside).trans up⟩
  · rintro ⟨below, up⟩
    exact ⟨below, (exchangeCreate_parent positive small below inside).symm.trans up⟩

/-- The ranks that send to `r` are its children in the numbering. -/
theorem senders_card (r : Nat) :
    ((Finset.range size).filter (fun c => 0 < c ∧ (exchangeCreate size c k).parentRank.toNat = r)).card =
      ((Finset.range (karyWidth size k)).filter (fun j => karyWidth size k * r + j + 1 < size)).card := by
  rw [← kary_children_card (karyWidth_pos positive)]
  congr 1
  ext c
  rw [mem_children, Finset.mem_filter, Finset.mem_range]
  exact and_congr_right fun inside => (exchangeCreate_parent_some positive small inside).symm

theorem karyChildof_named (offset : j < karyWidth size k) (r : Nat) :
    karyChildof (exchangeFanout size k) (.ofNat size) (.ofNat r) (.ofNat j) ≠ karyNone ↔
      (karyWidth size k * r + j + 1) % 2 ^ 32 < size := by
  rw [karyChildof_width (exchangeFanout_width positive small) offset small]
  split
  · rename_i named
    refine iff_of_true (fun none => ?_) named
    have absent : karyNone.toNat = 2 ^ 32 - 1 := by decide
    have same := congrArg UInt32.toNat none
    rw [UInt32.toNat_ofNat', absent] at same
    omega
  · rename_i outside
    exact iff_of_false (not_not_intro rfl) outside

theorem exchangeCreate_childCount (r : Nat) : (exchangeCreate size r k).childCount =
    ((Finset.range (karyWidth size k)).filter
      (fun j => (karyWidth size k * r + j + 1) % 2 ^ 32 < size)).card := by
  have width : (exchangeFanout size k).toInt.toNat = karyWidth size k := by
    rw [exchangeFanout_toInt small, Int.toNat_natCast]
  rw [← Nat.count_eq_card_filter_range, exchangeCreate, childCount, width, Nat.count]
  apply List.countP_congr
  intro j member
  simpa using karyChildof_named positive small (List.mem_range.mp member) r

omit positive small in
/-- Below 2^32 no number a shell computes wraps. -/
theorem karyChildof_unwrapped (fits : karyWidth size k * size < 2 ^ 32) (inside : r < size)
    (offset : j < karyWidth size k) : karyWidth size k * r + j + 1 < 2 ^ 32 := by
  have next : karyWidth size k * (r + 1) ≤ karyWidth size k * size := Nat.mul_le_mul_left _ inside
  rw [Nat.mul_succ] at next
  omega

theorem mem_karyChildren (fits : karyWidth size k * size < 2 ^ 32) (inside : r < size) :
    n ∈ karyChildren (exchangeFanout size k) (.ofNat size) (.ofNat r) ↔
      n.toNat < size ∧ karyUp (karyWidth size k) n.toNat = some r := by
  have width : (exchangeFanout size k).toInt.toNat = karyWidth size k := by
    rw [exchangeFanout_toInt small, Int.toNat_natCast]
  simp only [karyChildren, width, List.mem_filter, List.mem_map, List.mem_range, decide_eq_true_eq]
  constructor
  · rintro ⟨⟨j, offset, rfl⟩, named⟩
    have unwrapped := karyChildof_unwrapped fits inside offset
    have within := (karyChildof_named positive small offset r).mp named
    rw [Nat.mod_eq_of_lt unwrapped] at within
    rw [karyChildof_width (exchangeFanout_width positive small) offset small, Nat.mod_eq_of_lt unwrapped,
      if_pos within, uint32_toNat unwrapped]
    exact ⟨within, karyUp_child offset r⟩
  · rintro ⟨within, up⟩
    obtain ⟨j, offset, same⟩ := karyUp_offset (karyWidth_pos positive) up
    have unwrapped := karyChildof_unwrapped fits inside offset
    rw [same] at within
    have named : (karyWidth size k * r + j + 1) % 2 ^ 32 < size := by rwa [Nat.mod_eq_of_lt unwrapped]
    have child : karyChildof (exchangeFanout size k) (.ofNat size) (.ofNat r) (.ofNat j) = n := by
      rw [karyChildof_width (exchangeFanout_width positive small) offset small, if_pos named, ← same,
        UInt32.ofNat_toNat]
    rw [← child]
    exact ⟨⟨j, offset, rfl⟩, (karyChildof_named positive small offset r).mpr named⟩

theorem kary_consistent_below (fits : karyWidth size k * size < 2 ^ 32) : KaryConsistent size k where
  counted := by
    intro r inside
    rw [exchangeCreate_childCount positive small, senders_card positive small]
    congr 1
    refine Finset.filter_congr fun j member => ?_
    rw [Nat.mod_eq_of_lt (karyChildof_unwrapped fits inside (Finset.mem_range.mp member))]
  rising := by
    intro c below inside
    exact karyUp_below ((exchangeCreate_parent_some positive small inside).mpr ⟨below, rfl⟩)
  disjoint := by
    intro r inside q inside' different n first second
    have up := ((mem_karyChildren positive small fits inside).mp first).2
    have up' := ((mem_karyChildren positive small fits inside').mp second).2
    exact different (Option.some.inj (up.symm.trans up'))
  awaited := by
    intro c below within r inside
    rw [mem_karyChildren positive small fits inside, uint32_toNat (by omega),
      exchangeCreate_parent_some positive small within]
    simp [below, within]
  rooted := by
    refine fun r inside => (kary_tree (d := karyWidth size k) positive).root_induction
      (P := fun s => ∃ n, (fun c => (exchangeCreate size c k).parentRank.toNat)^[n] s = 0) ⟨0, rfl⟩ ?_
      r (Finset.mem_range.mpr inside)
    rintro c member p up ⟨n, arrives⟩
    obtain ⟨_, same⟩ := (exchangeCreate_parent_some positive small (Finset.mem_range.mp member)).mp up
    refine ⟨n + 1, ?_⟩
    rwa [Function.iterate_succ_apply, same]

/-- The shell whose children reach 2^32 counts rank 0 among them. -/
theorem kary_inconsistent_above (wraps : 2 ^ 32 ≤ karyWidth size k * size) : ¬ KaryConsistent size k := by
  intro consistent
  generalize width : karyWidth size k = d at wraps
  have positiveWidth : 0 < d := width ▸ karyWidth_pos positive
  have split := Nat.div_add_mod (2 ^ 32 - 1) d
  have inside : (2 ^ 32 - 1) / d < size := by
    rw [Nat.div_lt_iff_lt_mul positiveWidth, Nat.mul_comm]
    omega
  have counted := consistent.counted _ inside
  rw [exchangeCreate_childCount positive small, senders_card positive small, width] at counted
  refine absurd counted (ne_of_gt (Finset.card_lt_card (Finset.ssubset_iff_of_subset ?_ |>.mpr ?_)))
  · intro j member
    obtain ⟨offset, within⟩ := Finset.mem_filter.mp member
    refine Finset.mem_filter.mpr ⟨offset, ?_⟩
    rwa [Nat.mod_eq_of_lt (by omega)]
  · refine ⟨(2 ^ 32 - 1) % d, Finset.mem_filter.mpr ⟨?_, ?_⟩, ?_⟩
    · exact Finset.mem_range.mpr (Nat.mod_lt _ positiveWidth)
    · rw [split]
      simpa using positive
    · rw [Finset.mem_filter, split]
      omega

end

/-- The tree is consistent exactly when the fanout in use times the size stays below 2^32. -/
theorem kary_consistent (size : Nat) (k : Int32) (positive : 0 < size) (small : size < 2 ^ 31) :
    KaryConsistent size k ↔ karyWidth size k * size < 2 ^ 32 := by
  constructor
  · intro consistent
    by_contra wraps
    exact kary_inconsistent_above positive small (Nat.le_of_not_lt wraps) consistent
  · exact kary_consistent_below positive small

theorem kary_consistent_sample : KaryConsistent 4 2 :=
  (kary_consistent 4 2 (by decide) (by decide)).mpr (by decide)

/-- In a flat tree of 2^16 shells the last one awaits a request of rank 0. -/
theorem kary_flat_inconsistent : ¬ KaryConsistent 65536 65536 :=
  kary_inconsistent_above (by decide) (by decide) (by decide)

end FluxPmix
