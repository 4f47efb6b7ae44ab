import Mathlib.Data.List.Basic
import Mathlib.Tactic.IntervalCases

/-! The k-ary tree the shells form, in the source's mixed signed and unsigned arithmetic. -/
namespace FluxPmix

def defaultTreeK : Int32 := 2

def karyNone : UInt32 := ~~~0

/-- The parent of `i`, or `karyNone` at the root. -/
def karyParentof (k : Int32) (i : UInt32) : UInt32 :=
  if i = 0 ∨ k ≤ 0 then karyNone
  else if k = 1 then i - 1
  else (k.toUInt32 + (i + 1) - 2) / k.toUInt32 - 1

/-- The `j`th child of `i`, or `karyNone` when the tree has no such node. -/
def karyChildof (k : Int32) (size i : UInt32) (j : Int32) : UInt32 :=
  if 0 < k ∧ 0 ≤ j ∧ j < k then
    let n := k.toUInt32 * (i + 1) - (k - 2).toUInt32 + j.toUInt32 - 1
    if n < size then n else karyNone
  else karyNone

def childCount (k : Int32) (rank size : UInt32) : Nat :=
  (List.range k.toInt.toNat).countP (fun i => karyChildof k size rank (.ofNat i) ≠ karyNone)

/-- What `exchange_create` fixes for the life of the exchange. -/
structure Exchange where
  size : Nat
  rank : Nat
  parentRank : UInt32
  childCount : Nat
  deriving DecidableEq, Repr

/-- `k` as `exchange_create` uses it. -/
def exchangeFanout (size : Nat) (k : Int32) : Int32 :=
  if k ≤ 0 then defaultTreeK else if .ofNat size < k then .ofNat size else k

def exchangeCreate (size rank : Nat) (k : Int32) : Exchange where
  size := size
  rank := rank
  parentRank := karyParentof (exchangeFanout size k) (.ofNat rank)
  childCount := childCount (exchangeFanout size k) (.ofNat rank) (.ofNat size)

/-! ### The default fanout -/

theorem exchangeFanout_default (size : Nat) : exchangeFanout size 0 = 2 := by
  simp [exchangeFanout, defaultTreeK]

theorem karyParentof_two (positive : 0 < r) (bounded : r < 2 ^ 31) :
    (karyParentof 2 (.ofNat r)).toNat = (r - 1) / 2 := by
  have nonzero : UInt32.ofNat r ≠ 0 := by
    intro zero
    have := congrArg UInt32.toNat zero
    simp only [UInt32.toNat_ofNat', UInt32.toNat_zero] at this
    omega
  have positiveK : ¬ (2 : Int32) ≤ 0 := by decide
  have notOne : (2 : Int32) ≠ 1 := by decide
  have two : (2 : Int32).toUInt32 = 2 := by decide
  rw [karyParentof, if_neg (by simp [nonzero, positiveK]), if_neg notOne, two]
  have sum : (2 + (UInt32.ofNat r + 1) - 2).toNat = r + 1 := by
    rw [UInt32.toNat_sub_of_le, UInt32.toNat_add, UInt32.toNat_add, UInt32.toNat_ofNat']
    · simp only [UInt32.reduceToNat]
      omega
    · rw [UInt32.le_iff_toNat_le, UInt32.toNat_add, UInt32.toNat_add, UInt32.toNat_ofNat']
      simp only [UInt32.reduceToNat]
      omega
  rw [UInt32.toNat_sub_of_le, UInt32.toNat_div, sum]
  · simp only [UInt32.reduceToNat]
    omega
  · rw [UInt32.le_iff_toNat_le, UInt32.toNat_div, sum]
    simp only [UInt32.reduceToNat]
    omega

theorem karyChildof_two (inside : r < size) (small : size < 2 ^ 31) (j : Nat) (below : j < 2) :
    karyChildof 2 (.ofNat size) (.ofNat r) (.ofNat j) ≠ karyNone ↔ 2 * r + 1 + j < size := by
  have two : (2 : Int32).toUInt32 = 2 := by decide
  have zero : ((2 : Int32) - 2).toUInt32 = 0 := by decide
  have next : (UInt32.ofNat r + 1).toNat = r + 1 := by
    rw [UInt32.toNat_add, UInt32.toNat_ofNat']
    simp only [UInt32.reduceToNat]
    omega
  have doubled : ((2 : UInt32) * (.ofNat r + 1)).toNat = 2 * (r + 1) := by
    rw [UInt32.toNat_mul, next]
    simp only [UInt32.reduceToNat]
    omega
  have advanced : ((2 : UInt32) * (.ofNat r + 1) + .ofNat j).toNat = 2 * (r + 1) + j := by
    rw [UInt32.toNat_add, doubled, UInt32.toNat_ofNat']
    omega
  have node : ((2 : UInt32) * (.ofNat r + 1) - 0 + .ofNat j - 1).toNat = 2 * r + 1 + j := by
    rw [UInt32.sub_zero, UInt32.toNat_sub_of_le, advanced]
    · simp only [UInt32.reduceToNat]
      omega
    · rw [UInt32.le_iff_toNat_le, advanced]
      simp only [UInt32.reduceToNat]
      omega
  have guarded : 0 < (2 : Int32) ∧ 0 ≤ Int32.ofNat j ∧ Int32.ofNat j < 2 := by
    interval_cases j <;> decide
  have unsigned : (Int32.ofNat j).toUInt32 = .ofNat j := by
    interval_cases j <;> decide
  have sized : (UInt32.ofNat size).toNat = size := by
    rw [UInt32.toNat_ofNat']
    omega
  rw [karyChildof, if_pos guarded, two, zero, unsigned]
  simp only [UInt32.lt_iff_toNat_lt, node, sized]
  split
  · rename_i present
    refine ⟨fun _ => present, fun _ same => ?_⟩
    have absent : karyNone.toNat = 2 ^ 32 - 1 := by decide
    have := congrArg UInt32.toNat same
    rw [node, absent] at this
    omega
  · rename_i outside
    simp [outside]

theorem childCount_two (inside : r < size) (small : size < 2 ^ 31) :
    childCount 2 (.ofNat r) (.ofNat size) =
      (if 2 * r + 1 < size then 1 else 0) + (if 2 * r + 2 < size then 1 else 0) := by
  have first := karyChildof_two inside small 0 (by decide)
  have second := karyChildof_two inside small 1 (by decide)
  have fanout : (2 : Int32).toInt.toNat = 2 := by decide
  simp only [childCount, fanout, List.range_succ, List.range_zero, List.nil_append, List.countP_append,
    List.countP_singleton, decide_eq_true_eq, first, second]

end FluxPmix
